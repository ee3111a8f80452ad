import Stylesheet.Proofs.Scribe.Items

/-!
# Documents

A scribe writes documents as the functions with room for so many inclusions and imports do. So a
compilation ends, within its limits and without any bound on how deep calls go.

* `agrees_rootNodesIn`, `agrees_documentIn`: the agreement on documents.
* `compile_ends`: every compilation ends.
-/

namespace Stylesheet

/-! ## Root items -/

section Root

variable {context : Context} {common : Common} {resolver : Option Resolver}

theorem agrees_runRootLoop {f : Nat → Scope → Bool → Scribe (Scope × Bool)}
    {g : Option Resolver → Scope × Page → Writing (Scope × Page)} {base : Session} {w : Writer}
    (h : ∀ scope w, base.Below w.session → AgreesAtRoot context common resolver
      (fun n started => f n scope started) (fun r page => g r (scope, page)) w)
    (counter : String) (scope : Scope) (range : List Int) (hw : base.Below w.session) :
    AgreesAtRoot context common resolver
      (fun n started => Scribe.runRootLoop (f n) counter scope started range >>= fun started =>
        pure (scope, started))
      (fun r page => runRootLoop (g r) counter scope page range >>= fun page =>
        pure (scope, page)) w := by
  have hloop := AgreesAtRoot.foldlM (fun inner (i : Int) w hw =>
    h (inner.set counter (.number (Binary.ofInt i))) w hw) range scope.child hw
  simp only [Scribe.runRootLoop, runRootLoop, bind_assoc, pure_bind]
  exact hloop.bind fun _ w' _ => .pure scope w'

section Enter

variable {load : Nat → String → List Node → Scope → Scribe Unit}
  {loadIn : Option Resolver → String → List Node → Scope → Writing String}
  {enter : Nat → List Node → Scope → Bool → Scribe (Scope × Bool)}
  {enterIn : Option Resolver → RootRun} {base : Session}

mutual

theorem agrees_rootNodeBy
    (hload : ∀ path nodes scope w, base.Below w.session → AgreesOnItem context common resolver
      (fun n => load n path nodes scope) (fun r => loadIn r path nodes scope) w)
    (henter : ∀ body scope w, base.Below w.session → base.includes < w.session.includes →
      base.includes < Limit.includes.max → AgreesAtRoot context common resolver
        (fun n => enter n body scope) (fun r page => enterIn r body (scope, page)) w) :
    (node : Node) → (scope : Scope) → (w : Writer) → base.Below w.session →
    AgreesAtRoot context common resolver
      (fun n => Scribe.rootNodeBy context resolver n (load n) (enter n) node scope)
      (fun r page => rootNodeBy context r (loadIn r) (enterIn r) node (scope, page)) w
  | .mixin _ _ _, scope, w, _ => by
    simp only [Scribe.rootNodeBy, rootNodeBy]
    exact .pure scope w
  | .declaration _, scope, w, _ => by
    simp only [Scribe.rootNodeBy, rootNodeBy]
    exact .pure scope w
  | .assignment a, scope, w, _ => by
    simp only [Scribe.rootNodeBy, rootNodeBy]
    exact .pure _ w
  | .branch condition body otherwise, scope, w, hw => by
    simp only [Scribe.rootNodeBy, rootNodeBy]
    refine AgreesAtRoot.eval (u := fun env n => Scribe.chooseBranch env n scope condition)
      (b := fun env => env.chooseBranch scope condition)
      (reduces_chooseBranch (environment context w) condition _).agrees fun chosen t _ hst => ?_
    cases chosen with
    | true => exact agrees_rootNodesBy hload henter body scope _ (hw.trans hst)
    | false => exact agrees_rootNodesBy hload henter otherwise scope _ (hw.trans hst)
  | .loop counter first last inclusive body, scope, w, hw => by
    simp only [Scribe.rootNodeBy, rootNodeBy]
    refine AgreesAtRoot.eval (u := fun env n => Scribe.loopRange env n scope first last inclusive)
      (b := fun env => env.loopRange scope first last inclusive)
      (reduces_loopRange (environment context w) first last inclusive _).agrees
      fun range t _ hst => ?_
    exact agrees_runRootLoop (fun scope w hw => agrees_rootNodesBy hload henter body scope w hw)
      counter scope range (hw.trans hst)
  | .inclusion i, scope, w, hw => by
    simp only [Scribe.rootNodeBy, rootNodeBy]
    refine AgreesAtRoot.eval (u := fun env n => Scribe.expandInclude env.layers scope n i)
      (b := fun env => expandInclude env.layers scope i)
      (agrees_expandInclude (Nat.le_add_left _ _) i) fun body t ht hst => ?_
    obtain ⟨hlimit, hlt⟩ := expandInclude_ok ht
    have hincludes := hw.includes
    exact henter body scope _ (hw.trans hst) (Nat.lt_of_le_of_lt hincludes hlt)
      (Nat.lt_of_le_of_lt hincludes hlimit)
  | .comment text, scope, w, _ => by
    simp only [Scribe.rootNodeBy, rootNodeBy]
    have hpush : AgreesOnItem context common resolver _ _ w := ⟨_, _, _, .push (comment text) w⟩
    simpa only [pure_bind] using hpush.item scope
  | .importRule url, scope, w, hw => by
    simp only [Scribe.rootNodeBy, rootNodeBy]
    exact (agrees_import (fun path nodes scope => hload path nodes scope w hw) url scope).item scope
  | .block head body, scope, w, _ => by
    simp only [Scribe.rootNodeBy, rootNodeBy]
    exact (agrees_rule _ scope).item scope
  | .statement name prelude, scope, w, _ => by
    simp only [Scribe.rootNodeBy, rootNodeBy]
    exact (agrees_rule _ scope).item scope

theorem agrees_rootNodesBy
    (hload : ∀ path nodes scope w, base.Below w.session → AgreesOnItem context common resolver
      (fun n => load n path nodes scope) (fun r => loadIn r path nodes scope) w)
    (henter : ∀ body scope w, base.Below w.session → base.includes < w.session.includes →
      base.includes < Limit.includes.max → AgreesAtRoot context common resolver
        (fun n => enter n body scope) (fun r page => enterIn r body (scope, page)) w) :
    (nodes : List Node) → (scope : Scope) → (w : Writer) → base.Below w.session →
    AgreesAtRoot context common resolver
      (fun n => Scribe.rootNodesBy context resolver n (load n) (enter n) nodes scope)
      (fun r page => rootNodesBy context r (loadIn r) (enterIn r) nodes (scope, page)) w
  | [], scope, w, _ => by
    simp only [Scribe.rootNodesBy, rootNodesBy]
    exact .pure scope w
  | node :: nodes, scope, w, hw => by
    simp only [Scribe.rootNodesBy, rootNodesBy]
    exact (agrees_rootNodeBy hload henter node scope w hw).bind fun scope w' hww =>
      agrees_rootNodesBy hload henter nodes scope w' (hw.trans hww)

end

end Enter

theorem agrees_rootNodesIn {loadIn : Option Resolver → String → List Node → Scope → Writing String}
    {base : Session} {n : Nat} {w : Writer}
    (hload : ∀ path nodes scope w, base.Below w.session → AgreesOnItem context common resolver
      (fun n => Scribe.document context resolver n path nodes scope)
      (fun r => loadIn r path nodes scope) w)
    (hs : Limit.includes.max ≤ w.session.includes + n) (hw : base.Below w.session)
    (nodes : List Node) (scope : Scope) : AgreesAtRoot context common resolver
      (fun n => Scribe.rootNodes context resolver n nodes scope)
      (fun r page => rootNodesIn context r (loadIn r) n nodes (scope, page)) w := by
  induction n generalizing nodes scope w with
  | zero =>
    have hnone : ∀ body scope w', w.session.Below w'.session →
        w.session.includes < w'.session.includes → w.session.includes < Limit.includes.max →
        AgreesAtRoot context common resolver
          (fun n => Scribe.rootNodes context resolver n body scope)
          (fun _ _ => throw (.limitExceeded .includes "")) w' :=
      fun _ _ _ _ _ hlimit => (Nat.not_lt.2 hs hlimit).elim
    exact .step (agrees_rootNodesBy (fun path nodes scope w' hw' =>
      hload path nodes scope w' (hw.trans hw')) hnone nodes scope w (.refl _)) fun _ => rfl
  | succ n ih =>
    have henter : ∀ body scope w', w.session.Below w'.session →
        w.session.includes < w'.session.includes → w.session.includes < Limit.includes.max →
        AgreesAtRoot context common resolver
          (fun n => Scribe.rootNodes context resolver n body scope)
          (fun r page => rootNodesIn context r (loadIn r) n body (scope, page)) w' :=
      fun body scope w' hw' hlt _ => ih (by omega) (hw.trans hw') body scope
    exact .step (agrees_rootNodesBy (fun path nodes scope w' hw' =>
      hload path nodes scope w' (hw.trans hw')) henter nodes scope w (.refl _)) fun _ => rfl

/-! ## Documents -/

theorem Registry.get?_registerAll_congr {r r₀ : Registry} {name : String}
    (h : r₀.get? name = r.get? name) (nodes : List Node) :
    (r₀.registerAll nodes).get? name = (r.registerAll nodes).get? name := by
  induction nodes generalizing r r₀ with
  | nil => exact h
  | cons node nodes ih =>
    cases node with
    | mixin other params body =>
      refine ih ?_
      by_cases hname : name = other
      · subst hname
        simp [register]
      · simp only [register, Table.get?_insert_of_ne _ hname]
        exact h
    | _ => exact ih h

/-- The writer after a document was counted and its mixins were registered. -/
def Writer.open (w : Writer) (nodes : List Node) : Writer :=
  ⟨w.session.bump .imports, w.mixins.registerAll nodes⟩

theorem openDocument_ok {w : Writer} (h : w.session.imports < Limit.imports.max) (path : String)
    (nodes : List Node) : openDocument path nodes w = (.ok (), w.open nodes) := by
  have hcount : Writing.ofMetered (Metered.countImport path) w =
      (.ok (), { w with session := w.session.bump .imports }) := by
    rw [Writing.ofMetered, (counts_countImport path).ok w.session h]
  exact work_bind_ok hcount

theorem Common.Shadows.open {w w₀ : Writer} (h : common.Shadows w w₀) (nodes : List Node) :
    common.Shadows (w.open nodes) (w₀.open nodes) :=
  ⟨h.trails.bump .imports,
    fun name hname => Registry.get?_registerAll_congr (h.mixins name hname) nodes⟩

theorem openDocument_error (path : String) (nodes : List Node) :
    ∃ e, ∀ w : Writer, Limit.imports.max ≤ w.session.imports →
      Metered.countImport path w.session = (.error e, w.session.bump .imports) ∧
      openDocument path nodes w = (.error e, { w with session := w.session.bump .imports }) := by
  obtain ⟨e, herror⟩ := (counts_countImport path).error
  refine ⟨e, fun w hw => ⟨herror w.session hw, ?_⟩⟩
  have hcount : Writing.ofMetered (Metered.countImport path) w =
      (.error e, { w with session := w.session.bump .imports }) := by
    rw [Writing.ofMetered, herror w.session hw]
  exact work_bind_error hcount

/-- Above the limit for imports no document is opened. -/
theorem agrees_unopened {rest : Option Resolver → Unit → Writing String} {w : Writer}
    (hs : Limit.imports.max ≤ w.session.imports) (path : String) (nodes : List Node)
    (scope : Scope) : AgreesOnItem context common resolver
      (fun n => Scribe.document context resolver n path nodes scope)
      (fun r => openDocument path nodes >>= rest r) w := by
  obtain ⟨e, herror⟩ := openDocument_error path nodes
  have haccounted : Accounted w.session [.exceeded .imports] (w.session.bump .imports) :=
    .bump _ _ fun _ => rfl
  refine ⟨.error e, { w with session := w.session.bump .imports }, [.exceeded .imports],
    work_bind_error (herror w hs).2, ?_, haccounted, ?_⟩
  · rintro d rfl -
    refine ⟨d.out, fun _ h => (nomatch h), ?_⟩
    have hcounted : Scribe.counted (Metered.countImport path) .imports (.document path) d =
        some (.error e, d.after (d.writer.session.bump .imports) [.exceeded .imports]) :=
      Scribe.counted_error (herror d.writer hs).1
    exact Settles.step (.of_eq fun _ => Scribe.bind_error hcounted) fun _ => rfl
  · intro hneutral r₀ _ w₀ hw
    have hused : w₀.session.imports = w.session.imports :=
      hw.trails.used_eq .imports (hneutral _ List.mem_cons_self)
    refine ⟨_, hw.withSession (hw.trails.bump .imports), ?_⟩
    exact work_bind_error (herror w₀ (by omega)).2

theorem Scribe.document_succ (n : Nat) (path : String) (nodes : List Node) (scope : Scope) :
    document context resolver (n + 1) path nodes scope =
      (counted (Metered.countImport path) .imports (.document path) >>= fun _ =>
        register nodes >>= fun _ => rootNodes context resolver n nodes scope false >>= fun _ =>
          pure ()) := by
  rw [document]

/-- Within the limit a document is opened, and its items are written. -/
theorem agrees_opened {runIn : Option Resolver → Page → Writing (Scope × Page)} {w : Writer}
    (hlimit : w.session.imports < Limit.imports.max) (path : String) (nodes : List Node)
    (scope : Scope)
    (h : AgreesAtRoot context common resolver
      (fun n => Scribe.rootNodes context resolver n nodes scope) runIn (w.open nodes)) :
    AgreesOnItem context common resolver
      (fun n => Scribe.document context resolver n path nodes scope)
      (fun r => openDocument path nodes >>= fun _ => runIn r {} >>= fun p => pure p.2.text) w := by
  obtain ⟨o, items, w', deeds, h⟩ := h
  have hwriter : ∀ {r w₀ w₀'}, w₀.session.imports < Limit.imports.max →
      runIn r {} (w₀.open nodes) = (o.map (·, Page.addAll {} items), w₀') →
      (openDocument path nodes >>= fun _ => runIn r {} >>= fun p => pure p.2.text :
        Writing String) w₀ = (o.map fun _ => (Page.addAll {} items).text, w₀') := by
    intro r w₀ w₀' hlimit₀ hrun
    refine (work_bind_ok (openDocument_ok hlimit₀ path nodes)).trans ?_
    cases o with
    | error e => exact work_bind_error hrun
    | ok scope' => exact work_bind_ok hrun
  refine ⟨_, w', .document path :: deeds, hwriter hlimit (h.bounded {}), ?_, ?_, ?_⟩
  · rintro d rfl ht
    -- The scribe writes behind what is on its desk, the writer on a page of its own.
    have hcounted : Scribe.counted (Metered.countImport path) .imports (.document path) d =
        some (.ok (), d.after (d.writer.session.bump .imports) [.document path]) :=
      Scribe.counted_ok ((counts_countImport path).ok d.writer.session hlimit)
    obtain ⟨out, hout, hsettles⟩ := h.settles
      (d.turn (d.writer.open nodes) d.out [.document path]) ⟨d.out, false⟩ rfl ht rfl
    rw [Desk.turn_turn] at hsettles
    have hrest : Settles (fun n => Scribe.register nodes >>= fun _ =>
        Scribe.rootNodes context resolver n nodes scope false >>= fun _ => pure ())
        (d.after (d.writer.session.bump .imports) [.document path])
        ((o.map fun _ => (Page.addAll {} items).text).map fun _ => (),
          d.turn w' out (.document path :: deeds)) := by
      cases o with
      | error e => exact hsettles.bind_error
      | ok scope' => exact hsettles.bind (.of_eq fun _ => rfl)
    refine ⟨out, fun text htext => ?_, ?_⟩
    · cases o with
      | error e => cases htext
      | ok scope' =>
        cases htext
        have hbehind := congrArg Page.text (Page.addAll_behind d.out {} items)
        rw [String.append_empty] at hbehind
        rw [hout scope' rfl]
        exact hbehind
    · have hcounting : Settles (fun _ => Scribe.counted (Metered.countImport path) .imports
          (.document path)) d _ := .of_eq fun _ => hcounted
      exact (hcounting.bind hrest).step fun n => by rw [Scribe.document_succ]
  · have hdocument : Accounted w.session [.document path] (w.session.bump .imports) :=
      .bump_one hlimit fun c => by cases c <;> rfl
    exact hdocument.append h.accounted
  · intro hneutral r₀ hr w₀ hw
    obtain ⟨w₀', hw', hb⟩ :=
      h.shadowed (List.forall_mem_cons.1 hneutral).2 r₀ hr _ (hw.open nodes)
    have hused : w₀.session.imports ≤ w.session.imports := hw.trails.below.used .imports
    exact ⟨w₀', hw', hwriter (Nat.lt_of_le_of_lt hused hlimit) (hb {})⟩

/-- The room for imports inside of one another does not matter as long as it reaches the limit. -/
theorem agrees_documentIn {n : Nat} {w : Writer} (hs : Limit.imports.max ≤ w.session.imports + n)
    (path : String) (nodes : List Node) (scope : Scope) : AgreesOnItem context common resolver
      (fun n => Scribe.document context resolver n path nodes scope)
      (fun r => documentIn context r n path nodes scope) w := by
  induction n generalizing path nodes scope w with
  | zero => exact agrees_unopened hs path nodes scope
  | succ n ih =>
    by_cases hlimit : w.session.imports < Limit.imports.max
    · have hroot : AgreesAtRoot context common resolver
          (fun n => Scribe.rootNodes context resolver n nodes scope)
          (fun r page => rootNodesIn context r (documentIn context r n) Limit.includes.max nodes
            (scope, page)) (w.open nodes) := by
        refine agrees_rootNodesIn (fun path nodes scope w' hw' => ih ?_ path nodes scope)
          (Nat.le_add_left _ _) (.refl _) nodes scope
        -- A nested document has less room, but opening this one has counted.
        have himports : w.session.imports + 1 ≤ w'.session.imports := hw'.used .imports
        omega
      exact agrees_opened hlimit path nodes scope hroot
    · exact agrees_unopened (Nat.le_of_not_lt hlimit) path nodes scope

end Root

/-! ## Compilations -/

section Compilation

variable (context : Context) (resolver : Option Resolver)

theorem source_eq_readDocument (source : String) :
    Writing.source context resolver source =
      readDocument (documentIn context resolver Limit.imports.max) "" source context.scope := by
  rw [Writing.source, readDocument]
  cases Sheet.read source <;> rfl

/-- What a session allows from its start on. -/
theorem Accounted.tally_le_max {deeds : List Deed} {t : Session} (h : Accounted {} deeds t)
    (c : Counter) : tally c deeds ≤ c.limit.max := by
  have hle := h.tally_le c
  omega

/-- Every compilation ends. A scribe, whom no limit on its calls holds back, ends with the text or
the error of the compilation; all documents together, it wrote at most 200 of them, copied at most
1,000 bodies of mixins and evaluated at most 50,000 declarations. -/
theorem compile_ends (source : String) :
    ∃ outcome desk,
      (∃ n, ∀ m, n ≤ m → Scribe.writeSource context resolver m source
        { targets := context.targets } = some (outcome, desk)) ∧
      compile context resolver source = outcome.map (fun _ => desk.out) ∧
      tally .imports desk.history ≤ 200 ∧
      tally .includes desk.history ≤ 1000 ∧
      tally .nodes desk.history ≤ 50000 := by
  have hdocument : AgreesOnItem context .all resolver
      (fun n => readDocument (Scribe.document context resolver n) "" source context.scope)
      (fun r => readDocument (documentIn context r Limit.imports.max) "" source context.scope) {} :=
    agrees_readDocument (fun _ _ _ => agrees_documentIn (Nat.le_add_left _ _) _ _ _) "" source
      context.scope
  obtain ⟨o, w, deeds, h⟩ := hdocument
  obtain ⟨out, hout, hsettles⟩ := h.settles { targets := context.targets } rfl rfl
  refine ⟨_, _, hsettles, ?_, ?_⟩
  · have hcompile : compile context resolver source = o := by
      rw [compile, source_eq_readDocument]
      exact congrArg Prod.fst h.bounded
    rw [hcompile]
    cases o with
    | error e => rfl
    | ok text =>
      have htext : out = text := by simpa using hout text rfl
      rw [htext]
      rfl
  · have hhistory : ∀ c, tally c ([] ++ deeds) ≤ c.limit.max := h.accounted.tally_le_max
    exact ⟨hhistory .imports, hhistory .includes, hhistory .nodes⟩

end Compilation

end Stylesheet
