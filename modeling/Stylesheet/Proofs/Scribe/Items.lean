import Stylesheet.Proofs.Scribe.Drawing
import Stylesheet.Proofs.Scribe.Pages

/-!
# Items of a document

The texts of rules and imports. An import always has a text: a document that fails is contained,
with what it wrote put aside.

* `agrees_rule`: the text of a rule.
* `Asks`: the imports for which a resolver is asked; `importItem_document`: their texts.
* `ItemAgreement.contained`, `agrees_import`: the agreement on imports.
-/

namespace Stylesheet

/-! ## Texts and rules -/

section Items

variable {context : Context} {common : Common} {resolver : Option Resolver} {w : Writer}

theorem ItemAgreement.push (text : String) (w : Writer) :
    ItemAgreement context common resolver (fun _ => Scribe.push text) (fun _ => pure text) w
      (.ok text) w [] := by
  refine ⟨rfl, ?_, .nil _, fun _ _ _ w₀ hw => ⟨w₀, hw, rfl⟩⟩
  rintro d rfl -
  refine ⟨d.out ++ text, ?_, .of_eq fun _ => ?_⟩
  · rintro _ ⟨⟩
    rfl
  · simp only [Desk.turn, List.append_nil]
    rfl

/-- The text of a rule, once it is evaluated. -/
theorem ruleText_eq {rule : Node} {scope : Scope} {o : Except CompileError (List Node × Scope)}
    {t : Session} (h : (environment context w).evalNodes [rule] scope w.session = (o, t)) :
    ruleText context rule scope w = (do
      let css ← (← o).1.mapM (layoutRule context)
      return Css.renderAll css.flatten, { w with session := t }) := by
  have heval : (environment context w).evalRule rule scope w.session = (o.map Prod.fst, t) := by
    rw [Environment.evalRule]
    generalize (environment context w).evalNodes [rule] scope = work at h
    cases o with
    | error e => exact work_bind_error h
    | ok p => exact work_bind_ok h
  have hrule : ∃ next : List Node → Writing String,
      ruleText context rule scope w =
        (Writing.ofMetered ((environment context w).evalRule rule scope) >>= next) w ∧
      ∀ nodes w, next nodes w = (do
        let css ← nodes.mapM (layoutRule context)
        return Css.renderAll css.flatten, w) := by
    refine ⟨_, by rw [ruleText]; exact work_bind_ok rfl, fun nodes w => ?_⟩
    show _ = ((nodes.mapM (layoutRule context)).bind fun css => pure (Css.renderAll css.flatten), _)
    cases nodes.mapM (layoutRule context) <;> rfl
  obtain ⟨next, hrule, hnext⟩ := hrule
  rw [hrule]
  generalize (environment context w).evalRule rule scope = work at heval
  have hmetered : Writing.ofMetered work w = (o.map Prod.fst, { w with session := t }) := by
    rw [Writing.ofMetered, heval]
  cases o with
  | error e => exact work_bind_error hmetered
  | ok p => exact (work_bind_ok hmetered).trans (hnext p.1 _)

theorem Scribe.writeRule_eq (n : Nat) (rule : Node) (scope : Scope) (d : Desk) :
    writeRule context n rule scope d =
      (evalNodes (environment context d.writer) n [rule] scope >>= fun p =>
        p.1.mapM (draw context n) >>= fun css => push (Css.renderAll css.flatten)) d := by
  rw [writeRule]
  exact bind_ok rfl

theorem agrees_rule (rule : Node) (scope : Scope) :
    AgreesOnItem context common resolver (fun n => Scribe.writeRule context n rule scope)
      (fun _ => ruleText context rule scope) w := by
  have heval : Agrees common (environment context w).layers
      (fun n => Scribe.evalNodes (environment context w) n [rule] scope)
      (fun ls => Environment.evalNodes ⟨context.functions, ls⟩ [rule] scope)
      w.session := agrees_evalNodes [rule] scope
  obtain ⟨o, t, deeds, h⟩ := heval
  refine ⟨_, _, deeds, ruleText_eq h.bounded, ?_, h.accounted, ?_⟩
  · rintro d rfl ht
    have hsettles := h.settles d rfl
    cases o with
    | error e =>
      refine ⟨d.out, fun _ h => (nomatch h), ?_⟩
      exact Settles.congr hsettles.bind_error fun n => Scribe.writeRule_eq n rule scope d
    | ok p =>
      have hdraw := settles_layoutRules (d := d.after t deeds) ht p.1
      show ∃ out, (∀ text, ((p.1.mapM (layoutRule context)).bind fun css =>
        pure (Css.renderAll css.flatten)) = .ok text → _) ∧
          Settles _ d (((p.1.mapM (layoutRule context)).bind fun css =>
            pure (Css.renderAll css.flatten)).map _, _)
      cases hcss : p.1.mapM (layoutRule context) with
      | error e =>
        rw [hcss] at hdraw
        refine ⟨d.out, fun _ h => (nomatch h), ?_⟩
        exact Settles.congr (hsettles.bind hdraw.bind_error) fun n =>
          Scribe.writeRule_eq n rule scope d
      | ok css =>
        rw [hcss] at hdraw
        refine ⟨d.out ++ Css.renderAll css.flatten, ?_, ?_⟩
        · rintro _ ⟨⟩
          rfl
        · exact Settles.congr (hsettles.bind (hdraw.bind (.of_eq fun _ => rfl))) fun n =>
            Scribe.writeRule_eq n rule scope d
  · intro hneutral r₀ _ w₀ hw
    obtain ⟨t₀, ht, hb⟩ :=
      h.shadowed hneutral (environment context w₀).layers (hw.sameMixins context) _ hw.trails
    exact ⟨_, hw.withSession ht, ruleText_eq hb⟩

/-! ## Imports -/

/-- What stands below the path of an imported document. -/
def importedOutcome (path : String) : Except CompileError String → String
  | .ok text => onNewLine text
  | .error e => importFailure path e

/-- A document is contained: whatever its outcome is, the item is written, and the text before it
stays. -/
theorem ItemAgreement.contained {u : Nat → Scribe Unit} {b : Option Resolver → Writing String}
    {o : Except CompileError String} {w' : Writer} {deeds : List Deed}
    (h : ItemAgreement context common resolver u b w o w' deeds) (path : String) :
    ItemAgreement context common resolver (fun n => Scribe.contained path (u n))
      (fun r w => (.ok (importedOutcome path (b r w).1), (b r w).2)) w
      (.ok (importedOutcome path o)) w' deeds := by
  refine ⟨?_, fun d hw ht => ?_, h.accounted, fun hneutral r₀ hr w₀ hw => ?_⟩
  · show (_, _) = _
    rw [h.bounded]
  · obtain ⟨out, hout, hsettles⟩ := h.settles { d with out := "" } hw ht
    refine ⟨_, fun _ h => congrArg (d.out ++ ·) (Except.ok.inj h), ?_⟩
    cases o with
    | error e =>
      have hrest : Settles (fun _ => MonadState.get >>= fun d' : Desk =>
          Scribe.setText d.out >>= fun _ => Scribe.push (importFailure path e))
          (d.turn w' out deeds) (.ok (), d.turn w' (d.out ++ importFailure path e) deeds) :=
        .of_eq fun _ => rfl
      exact hsettles.attempt.bind hrest
    | ok text =>
      have hrest : Settles (fun _ => MonadState.get >>= fun d' : Desk =>
          Scribe.setText d.out >>= fun _ => Scribe.push (onNewLine d'.out))
          (d.turn w' out deeds) (.ok (), d.turn w' (d.out ++ onNewLine out) deeds) :=
        .of_eq fun _ => rfl
      have htext : out = text := by simpa using hout text rfl
      rw [htext] at hsettles hrest
      exact hsettles.attempt.bind hrest
  · obtain ⟨w₀', hw', hb⟩ := h.shadowed hneutral r₀ hr w₀ hw
    refine ⟨w₀', hw', ?_⟩
    show (_, _) = _
    rw [hb]

theorem agrees_readDocument {load : Nat → String → List Node → Scope → Scribe Unit}
    {loadIn : Option Resolver → String → List Node → Scope → Writing String}
    (h : ∀ path nodes scope, AgreesOnItem context common resolver
      (fun n => load n path nodes scope) (fun r => loadIn r path nodes scope) w)
    (path text : String) (scope : Scope) : AgreesOnItem context common resolver
      (fun n => readDocument (load n) path text scope)
      (fun r => readDocument (loadIn r) path text scope) w := by
  unfold readDocument
  cases Sheet.read text with
  | error e =>
    refine ⟨.error (.malformed e), w, [], rfl, ?_, .nil _, fun _ _ _ w₀ hw => ⟨w₀, hw, rfl⟩⟩
    rintro d rfl -
    refine ⟨d.out, fun _ h => (nomatch h), .of_eq fun _ => ?_⟩
    rw [Desk.turn_self]
    rfl
  | ok sheet => exact h path sheet.nodes scope.child

/-- An import that asks a resolver for the document at a path. -/
def Asks (resolver : Option Resolver) (url path : String) (found : Option String) : Prop :=
  ∃ r, resolver = some r ∧ importPath? url r.scopedPath = some path ∧ r.read path = found

section Import

variable {url path : String} {found : Option String} {text : String} {scope : Scope}
  {r₀ : Option Resolver}

theorem Common.SameReads.asks (h : common.SameReads resolver r₀) (hpath : common.path path)
    (hasks : Asks resolver url path found) : Asks r₀ url path found := by
  obtain ⟨r, rfl, hurl, hread⟩ := hasks
  cases h with
  | some hscoped hsame =>
    refine ⟨_, rfl, ?_, (hsame path hpath).trans hread⟩
    rw [hscoped]
    exact hurl

/-- An import that is left to the browser. -/
def Unasked (resolver : Option Resolver) (url : String) : Prop :=
  ∀ r, resolver = some r → importPath? url r.scopedPath = none

theorem asks_or_unasked (resolver : Option Resolver) (url : String) :
    (∃ path found, Asks resolver url path found) ∨ Unasked resolver url := by
  cases resolver with
  | none => exact .inr fun _ h => (nomatch h)
  | some r =>
    cases hurl : importPath? url r.scopedPath with
    | none =>
      refine .inr ?_
      rintro _ ⟨⟩
      exact hurl
    | some path => exact .inl ⟨path, r.read path, r, rfl, hurl, rfl⟩

theorem Common.SameReads.unasked (h : common.SameReads resolver r₀)
    (hunasked : Unasked resolver url) : Unasked r₀ url := by
  cases h with
  | none => exact hunasked
  | some hscoped _ =>
    rintro _ ⟨⟩
    rw [hscoped]
    exact hunasked _ rfl

section Load

variable {load : String → List Node → Scope → Writing String}

theorem importItem_unasked (h : Unasked resolver url) :
    importItem resolver load url scope = pure (importText url) := by
  cases resolver with
  | none => rfl
  | some r => simp only [importItem, h r rfl]

theorem importItem_notFound (h : Asks resolver url path none) :
    importItem resolver load url scope w = (comment path ++ ("\n" ++ comment "NOT FOUND"), w) := by
  obtain ⟨r, rfl, hurl, hread⟩ := h
  simp only [importItem, hurl, hread, ← String.append_assoc]
  rfl

/-- An imported document: whatever its outcome is, there is a text for it. -/
theorem importItem_document (h : Asks resolver url path (some text))
    (hsource : path.endsWith ("." ++ sourceExtension) = true) {o : Except CompileError String}
    {w' : Writer} (hdocument : readDocument load path text scope w = (o, w')) :
    importItem resolver load url scope w = (comment path ++ importedOutcome path o, w') := by
  obtain ⟨r, rfl, hurl, hread⟩ := h
  have himported : importedText load path text scope w = (importedOutcome path o, w') := by
    rw [importedText, if_pos hsource]
    unfold readDocument at hdocument
    cases hsheet : Sheet.read text with
    | error e =>
      rw [hsheet] at hdocument
      cases hdocument
      rfl
    | ok sheet =>
      rw [hsheet] at hdocument
      refine (state_bind hdocument).trans ?_
      cases o <;> rfl
  simp only [importItem, hurl, hread]
  exact state_bind himported

theorem importItem_plain (h : Asks resolver url path (some text))
    (hplain : ¬ path.endsWith ("." ++ sourceExtension) = true) :
    importItem resolver load url scope w = (comment path ++ onNewLine (Text.trimEnd text), w) := by
  obtain ⟨r, rfl, hurl, hread⟩ := h
  simp only [importItem, hurl, hread, importedText, if_neg hplain]
  rfl

end Load

section Agree

variable {load : Nat → String → List Node → Scope → Scribe Unit}
  {loadIn : Option Resolver → String → List Node → Scope → Writing String}

theorem Scribe.writeImportBy_asks {load : String → List Node → Scope → Scribe Unit}
    (h : Asks resolver url path found) : writeImportBy resolver load url scope =
      (push (comment path) >>= fun _ => record (.asked path) >>= fun _ =>
        writeFound load path scope found) := by
  obtain ⟨r, rfl, hurl, hread⟩ := h
  simp only [writeImportBy, hurl, hread]

theorem Scribe.writeImportBy_unasked {load : String → List Node → Scope → Scribe Unit}
    (h : Unasked resolver url) : writeImportBy resolver load url scope = push (importText url) := by
  cases resolver with
  | none => rfl
  | some r => simp only [writeImportBy, h r rfl]

/-- An import that asks for a path is its path and what was found there. -/
theorem ItemAgreement.asked {u : Nat → Scribe Unit} {b : Option Resolver → Writing String}
    {below : String} {w' : Writer} {deeds : List Deed} (hasks : Asks resolver url path found)
    (h : ItemAgreement context common resolver u b w (.ok below) w' deeds)
    (hu : ∀ n, Scribe.writeFound (load n) path scope found = u n)
    (hb : ∀ r₀, Asks r₀ url path found → ∀ w₀ w₀', b r₀ w₀ = (.ok below, w₀') →
      importItem r₀ (loadIn r₀) url scope w₀ = (comment path ++ below, w₀')) :
    ItemAgreement context common resolver
      (fun n => Scribe.writeImportBy resolver (load n) url scope)
      (fun r₀ => liftM (importItem r₀ (loadIn r₀) url scope)) w (.ok (comment path ++ below)) w'
      (.asked path :: deeds) := by
  have hlift : ∀ r₀, Asks r₀ url path found → ∀ w₀ w₀', b r₀ w₀ = (.ok below, w₀') →
      (liftM (importItem r₀ (loadIn r₀) url scope) : Writing String) w₀ =
        (.ok (comment path ++ below), w₀') := by
    intro r₀ hr w₀ w₀' hw
    show (Except.ok (importItem r₀ (loadIn r₀) url scope w₀).1,
      (importItem r₀ (loadIn r₀) url scope w₀).2) = _
    rw [hb r₀ hr w₀ w₀' hw]
  refine ⟨hlift resolver hasks w w' h.bounded, fun d hw ht => ?_, ?_, ?_⟩
  · obtain ⟨out, hout, hsettles⟩ :=
      h.settles (d.turn w (d.out ++ comment path) [.asked path]) rfl ht
    refine ⟨out, fun text htext => ?_, ?_⟩
    · cases htext
      rw [hout below rfl, ← String.append_assoc]
      rfl
    · rw [Desk.turn_turn] at hsettles
      subst hw
      exact Settles.congr hsettles fun n => by
        rw [Scribe.writeImportBy_asks hasks, hu]
  · have hasked : Accounted w.session [.asked path] w.session := .still _ fun _ => rfl
    exact hasked.append h.accounted
  · intro hneutral r₀ hr w₀ hw
    obtain ⟨hpath, hneutral⟩ := List.forall_mem_cons.1 hneutral
    obtain ⟨w₀', hw', hshadow⟩ := h.shadowed hneutral r₀ hr w₀ hw
    exact ⟨w₀', hw', hlift r₀ (hr.asks hpath hasks) w₀ w₀' hshadow⟩

theorem agrees_import
    (h : ∀ path nodes scope, AgreesOnItem context common resolver
      (fun n => load n path nodes scope) (fun r => loadIn r path nodes scope) w)
    (url : String) (scope : Scope) : AgreesOnItem context common resolver
      (fun n => Scribe.writeImportBy resolver (load n) url scope)
      (fun r => liftM (importItem r (loadIn r) url scope)) w := by
  rcases asks_or_unasked resolver url with ⟨path, found, hasks⟩ | hunasked
  · cases found with
    | none =>
      have hpush : ItemAgreement context common resolver _ _ w _ w [] :=
        .push ("\n" ++ comment "NOT FOUND") w
      refine ⟨_, _, _, hpush.asked hasks (fun _ => rfl) fun r₀ hr w₀ w₀' hb => ?_⟩
      cases hb
      exact importItem_notFound hr
    | some text =>
      by_cases hsource : path.endsWith ("." ++ sourceExtension) = true
      · obtain ⟨o, w', deeds, hdocument⟩ := agrees_readDocument h path text scope
        refine ⟨_, _, _, (hdocument.contained path).asked hasks (fun _ => ?_)
          fun r₀ hr w₀ w₀' hb => ?_⟩
        · rw [Scribe.writeFound, if_pos hsource]
        · rcases hresult : readDocument (loadIn r₀) path text scope w₀ with ⟨o₀, w₁⟩
          rw [hresult] at hb
          have htext : importedOutcome path o₀ = importedOutcome path o :=
            Except.ok.inj (congrArg Prod.fst hb)
          have hw : w₁ = w₀' := congrArg Prod.snd hb
          rw [importItem_document hr hsource hresult, htext, hw]
      · have hpush : ItemAgreement context common resolver _ _ w _ w [] :=
          .push (onNewLine (Text.trimEnd text)) w
        refine ⟨_, _, _, hpush.asked hasks (fun _ => ?_) fun r₀ hr w₀ w₀' hb => ?_⟩
        · rw [Scribe.writeFound, if_neg hsource]
        · cases hb
          exact importItem_plain hr hsource
  · refine ⟨.ok (importText url), w, [], ?_⟩
    have hpush : ItemAgreement context common resolver _ _ w _ w [] := .push (importText url) w
    refine ⟨?_, ?_, hpush.accounted, ?_⟩
    · simp only [importItem_unasked hunasked]
      rfl
    · simpa only [Scribe.writeImportBy_unasked hunasked] using hpush.settles
    · intro _ r₀ hr w₀ hw
      refine ⟨w₀, hw, ?_⟩
      simp only [importItem_unasked (hr.unasked hunasked)]
      rfl

end Agree

end Import

end Items

end Stylesheet
