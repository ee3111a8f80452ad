import Stylesheet.Proofs.Scribe.Documents

/-!
# Containment of imports

An import at the root of a document always succeeds. What an imported document wrote before it
failed is gone, and so is every change that it made to the targets and to the depth of evaluation.

* `rootNodesIn_import`: root items up to an import, the import, and those after it.
* `brokenPartial`: a document that registers a mixin and fails.
* `import_is_contained`: failures of imported documents stay inside of them.
-/

namespace Stylesheet

/-! ## Root items in sequence -/

section Sequence

variable {context : Context} {resolver : Option Resolver}
  {load : String → List Node → Scope → Writing String} {k : Nat}

theorem rootNodesBy_append {enter : RootRun} (pre rest : List Node) (s : Scope × Page) :
    rootNodesBy context resolver load enter (pre ++ rest) s =
      rootNodesBy context resolver load enter pre s >>=
        rootNodesBy context resolver load enter rest := by
  induction pre generalizing s with
  | nil => simp [rootNodesBy]
  | cons node pre ih =>
    rw [List.cons_append, rootNodesBy, rootNodesBy, bind_assoc]
    congr 1
    funext s
    exact ih s

theorem exists_enter (context : Context) (resolver : Option Resolver)
    (load : String → List Node → Scope → Writing String) (k : Nat) :
    ∃ enter, rootNodesIn context resolver load k = rootNodesBy context resolver load enter := by
  cases k with
  | zero => exact ⟨_, rfl⟩
  | succ k => exact ⟨_, rfl⟩

/-- Root items up to an import, the import, and those after it. -/
theorem rootNodesIn_import {pre post : List Node} {url text : String} {start : Scope × Page}
    {scope : Scope} {page : Page} {w w₁ w₂ : Writer}
    (hpre : rootNodesIn context resolver load k pre start w = (.ok (scope, page), w₁))
    (himport : importItem resolver load url scope w₁ = (text, w₂)) :
    rootNodesIn context resolver load k (pre ++ .importRule url :: post) start w =
      rootNodesIn context resolver load k post (scope, page.add text) w₂ := by
  obtain ⟨enter, henter⟩ := exists_enter context resolver load k
  rw [henter] at hpre ⊢
  rw [rootNodesBy_append, work_bind_ok hpre, rootNodesBy, rootNodeBy, bind_assoc]
  have hlift : (liftM (importItem resolver load url scope) : Writing String) w₁ =
      (.ok text, w₂) := by
    show (Except.ok (importItem resolver load url scope w₁).1,
      (importItem resolver load url scope w₁).2) = _
    rw [himport]
  rw [work_bind_ok hlift, pure_bind]

theorem rootNodesIn_nil {s : Scope × Page} {w : Writer} :
    rootNodesIn context resolver load k [] s w = (.ok s, w) := by
  obtain ⟨enter, henter⟩ := exists_enter context resolver load k
  rw [henter, rootNodesBy]
  rfl

theorem rootNodesIn_mixin (name : String) (params : List Parameter) (body nodes : List Node)
    (s : Scope × Page) : rootNodesIn context resolver load k (.mixin name params body :: nodes) s =
      rootNodesIn context resolver load k nodes s := by
  obtain ⟨enter, henter⟩ := exists_enter context resolver load k
  rw [henter, rootNodesBy, rootNodeBy, pure_bind]

section Inclusion

variable {scope : Scope} {page : Page} {w : Writer} {t : Session} {i : Inclusion}

theorem rootNodeBy_inclusion {enter : RootRun} :
    rootNodeBy context resolver load enter (.inclusion i) (scope, page) w =
      (Writing.ofMetered (expandInclude (environment context w).layers scope i) >>= fun body =>
        enter body (scope, page) : Writing (Scope × Page)) w := by
  rw [rootNodeBy]
  exact work_bind_ok rfl

theorem rootNodesIn_inclusion_error {e : CompileError} (nodes : List Node)
    (h : expandInclude (environment context w).layers scope i w.session = (.error e, t)) :
    rootNodesIn context resolver load k (.inclusion i :: nodes) (scope, page) w =
      (.error e, { w with session := t }) := by
  obtain ⟨enter, henter⟩ := exists_enter context resolver load k
  have hexpand : Writing.ofMetered (expandInclude (environment context w).layers scope i) w =
      (.error e, { w with session := t }) := by
    rw [Writing.ofMetered, h]
  rw [henter, rootNodesBy]
  exact work_bind_error (rootNodeBy_inclusion.trans (work_bind_error hexpand))

/-- A mixin without a body leaves nothing but a count. -/
theorem rootNodesIn_inclusion_nil (nodes : List Node)
    (h : expandInclude (environment context w).layers scope i w.session = (.ok [], t)) :
    rootNodesIn context resolver load (k + 1) (.inclusion i :: nodes) (scope, page) w =
      rootNodesIn context resolver load (k + 1) nodes (scope, page) { w with session := t } := by
  have hexpand : Writing.ofMetered (expandInclude (environment context w).layers scope i) w =
      (.ok [], { w with session := t }) := by
    rw [Writing.ofMetered, h]
  rw [rootNodesIn, rootNodesBy]
  exact work_bind_ok (rootNodeBy_inclusion.trans ((work_bind_ok hexpand).trans rootNodesIn_nil))

end Inclusion

theorem compile_of_rootNodes {source : String} {nodes : List Node} {w : Writer}
    {o : Except CompileError (Scope × Page)} (hread : Sheet.read source = .ok ⟨nodes⟩)
    (hroot : rootNodesIn context resolver (documentIn context resolver 199) Limit.includes.max nodes
      (context.scope.child, {}) (Writer.open {} nodes) = (o, w)) :
    compile context resolver source = o.map fun p => p.2.text := by
  rw [compile, source_eq_readDocument, readDocument, hread]
  show (documentIn context resolver (199 + 1) "" nodes _ {}).1 = _
  rw [documentIn, work_bind_ok (openDocument_ok (by decide) _ _)]
  cases o with
  | error e => exact congrArg Prod.fst (work_bind_error hroot)
  | ok p => exact congrArg Prod.fst (work_bind_ok hroot)

end Sequence

/-! ## Single inclusions -/

section Inclusion

variable {layers : List Registry} {scope : Scope} {i : Inclusion} {s : Session}

theorem expandInclude_eq (hlimit : s.includes < Limit.includes.max) :
    expandInclude layers scope i s = (Metered.ofExcept (mixinBody layers scope i) >>=
      spliceNodes (expandIncludeIn layers scope 999)) (s.bump .includes) := by
  have hsplit : expandInclude layers scope i =
      inclusionBody layers scope i >>= spliceNodes (expandIncludeIn layers scope 999) :=
    expandIncludeIn_succ layers scope 999 i
  rw [hsplit, inclusionBody, bind_assoc, work_bind_ok ((counts_countInclude i.name).ok s hlimit)]

theorem mixinBody_missing (h : Registry.find? layers i.name = none) :
    mixinBody layers scope i = .error (.mixinNotRegistered i.name) := by
  rw [mixinBody, h]

theorem expandInclude_missing (hlimit : s.includes < Limit.includes.max)
    (h : Registry.find? layers i.name = none) :
    expandInclude layers scope i s = (.error (.mixinNotRegistered i.name), s.bump .includes) := by
  rw [expandInclude_eq hlimit, mixinBody_missing h]
  exact work_bind_error (ofExcept_eq _ _)

end Inclusion

/-! ## A partial that registers a mixin and fails -/

/-- One document, which declares a mixin and then includes another one. -/
def brokenPartial : Resolver where
  read path := if path = "p.scss" then some "@mixin m\x7b\x7d@include n;" else none

theorem partial_compiled : "p.scss".endsWith ("." ++ sourceExtension) = true := by cbv

theorem asks_brokenPartial :
    Asks (some brokenPartial) "/p.scss" "p.scss" (some "@mixin m\x7b\x7d@include n;") :=
  ⟨_, rfl, by cbv, by cbv⟩

/-- Whether a text was read as the mixin `m` without a body and an inclusion of `n`. -/
def isBrokenPartial : Except SyntaxError Sheet → Bool
  | .ok ⟨[.mixin declared [] [], .inclusion ⟨name, none, _⟩]⟩ => declared == "m" && name == "n"
  | _ => false

theorem read_brokenPartial : ∃ position, Sheet.read "@mixin m\x7b\x7d@include n;" =
    .ok ⟨[.mixin "m" [] [], .inclusion ⟨"n", none, position⟩]⟩ := by
  have h : isBrokenPartial (Sheet.read "@mixin m\x7b\x7d@include n;") = true := by
    decide +kernel
  unfold isBrokenPartial at h
  split at h
  · rename_i hread
    simp only [Bool.and_eq_true, beq_iff_eq] at h
    obtain ⟨rfl, rfl⟩ := h
    exact ⟨_, hread⟩
  · cases h

theorem brokenPartial_fails {resolver : Option Resolver} {n : Nat} {w : Writer} (scope : Scope)
    (himports : w.session.imports < Limit.imports.max)
    (hincludes : w.session.includes < Limit.includes.max) (hmixin : w.mixins.get? "n" = none) :
    readDocument (documentIn {} resolver (n + 1)) "p.scss" "@mixin m\x7b\x7d@include n;" scope w =
      (.error (.mixinNotRegistered "n"),
        ⟨(w.session.bump .imports).bump .includes, w.mixins.register ⟨"m", [], []⟩⟩) := by
  obtain ⟨position, hread⟩ := read_brokenPartial
  have hget : (w.mixins.register ⟨"m", [], []⟩).get? "n" = none := by
    rw [Registry.register, Table.get?_insert_of_ne _ (by decide), hmixin]
  have hfind : Registry.find? [w.mixins.register ⟨"m", [], []⟩, .empty] "n" = none := by
    simp [Registry.find?, hget]
  rw [readDocument, hread]
  dsimp only
  rw [documentIn, work_bind_ok (openDocument_ok himports _ _), rootNodesIn_mixin]
  exact work_bind_error (rootNodesIn_inclusion_error [] (expandInclude_missing hincludes hfind))

/-! ## Containment -/

/-- An import cannot fail. Its text comes behind what was written before; if a document was found
but could not be read or written, the text is the path and what stands in the place of the document,
rules that blank the page and a comment with the failure. The targets and the depth of evaluation
are what they were, and no count has gone down. -/
theorem import_is_contained (context : Context) (resolver : Option Resolver) (url : String)
    (scope : Scope) (d : Desk) (n : Nat) (hroot : d.targets = context.targets)
    (hroom : Limit.imports.max ≤ d.writer.session.imports + n) :
    ∃ text d',
      (∃ k, ∀ m, k ≤ m → Scribe.writeImport context resolver m url scope d = some (.ok (), d')) ∧
      importItem resolver (documentIn context resolver n) url scope d.writer = (text, d'.writer) ∧
      d'.out = d.out ++ text ∧
      (∀ path source e w, Asks resolver url path (some source) →
        path.endsWith ("." ++ sourceExtension) = true →
        readDocument (documentIn context resolver n) path source scope d.writer = (.error e, w) →
        text = comment path ++ importFailure path e ∧
        importFailure path e = blankingRules ++ "\n/*" ++
          (" --- Parse Error in '" ++ path ++ "' : " ++ e.report ++ "\n") ++ "*/") ∧
      d'.targets = d.targets ∧
      d'.writer.session.depth = d.writer.session.depth ∧
      d.writer.session.includes ≤ d'.writer.session.includes ∧
      d.writer.session.imports ≤ d'.writer.session.imports ∧
      d.writer.session.nodes ≤ d'.writer.session.nodes := by
  have himport : AgreesOnItem context .all resolver
      (fun m => Scribe.writeImport context resolver m url scope)
      (fun r => liftM (importItem r (documentIn context r n) url scope)) d.writer :=
    agrees_import (fun _ _ _ => agrees_documentIn hroom _ _ _) url scope
  obtain ⟨o, w, deeds, h⟩ := himport
  obtain ⟨out, hout, hsettles⟩ := h.settles d rfl hroot
  rcases hitem : importItem resolver (documentIn context resolver n) url scope d.writer with
    ⟨text, w'⟩
  have hbounded : (Except.ok (importItem resolver (documentIn context resolver n) url scope
      d.writer).1, (importItem resolver (documentIn context resolver n) url scope d.writer).2) =
        (o, w) := h.bounded
  rw [hitem] at hbounded
  cases hbounded
  refine ⟨text, _, hsettles, rfl, hout text rfl, ?_, rfl, ?_, ?_⟩
  · intro path source e w hasks hsource hfails
    have himported := importItem_document hasks hsource hfails
    rw [hitem] at himported
    exact ⟨congrArg Prod.fst himported, importFailure_eq path e⟩
  · exact h.accounted.below.depth.symm
  · exact ⟨h.accounted.below.used .includes, h.accounted.below.used .imports,
      h.accounted.below.used .nodes⟩

/-- The partial is contained behind what stands before it. -/
theorem brokenPartial_is_contained :
    ∃ d', (∃ k, ∀ m, k ≤ m → Scribe.writeImport {} (some brokenPartial) m "/p.scss" {}
        { targets := [], out := "a" } = some (.ok (), d')) ∧
      d'.out = "a" ++ (comment "p.scss" ++ importFailure "p.scss" (.mixinNotRegistered "n")) ∧
      d'.targets = [] ∧ d'.writer.session.depth = 0 := by
  obtain ⟨text, d', hrun, -, hout, hfailed, htargets, hdepth, -⟩ := import_is_contained {}
    (some brokenPartial) "/p.scss" {} { targets := [], out := "a" } 200 rfl (by decide)
  have hfails : readDocument (documentIn {} (some brokenPartial) 200) "p.scss"
      "@mixin m\x7b\x7d@include n;" {} {} = _ :=
    brokenPartial_fails _ (by decide) (by decide) (Table.get?_empty _)
  refine ⟨d', hrun, ?_, htargets, hdepth⟩
  rw [hout, (hfailed _ _ _ _ asks_brokenPartial partial_compiled hfails).1]

end Stylesheet
