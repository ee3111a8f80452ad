import Stylesheet.Proofs.Document.Comparison
import Stylesheet.Proofs.Document.Joining
import Stylesheet.Proofs.Target.Keyframes

/-!
# The order of targets

Declarations look at all targets when copies are written, and keyframes at the first target of a kind
only. So a document says the same for any order of its targets, but for keyframes: whether these are
marked, and what is marked inside of them, is told by the first Firefox and the first Safari.

* `AlikeText`, `AlikeDocument`: texts of items and documents that differ in the order of copies, and in
  copies of keyframes.
* `itemsAlike_targets`: items that come out alike.
* `writeDocument_reordered`: documents for two orders of the targets.
-/

namespace Stylesheet

/-! ## Texts -/

/-- Texts of an item. -/
inductive AlikeText (same : Prop) : String → String → Prop
  | refl (text : String) : AlikeText same text text
  | rule {css css' : List Css} (h : Css.Alike same css css') :
      AlikeText same (Css.renderAll css) (Css.renderAll css')
  | document (path : String) {items items' : List String}
      (h : List.Forall₂ (AlikeText same) items items') :
      AlikeText same (comment path ++ onNewLine (joinItems items))
        (comment path ++ onNewLine (joinItems items'))

/-- Texts of a document. -/
def AlikeDocument (same : Prop) (text text' : String) : Prop :=
  ∃ items items', List.Forall₂ (AlikeText same) items items' ∧ text = joinItems items ∧
    text' = joinItems items'

/-! ## Items -/

section Items

variable {context : Context} {targets : List Browser} {resolver : Option Resolver}

theorem ruleText_of_layout {rule : Node} {scope : Scope} {w : Writer} {evaluated : List Node × Scope}
    {t : Session} {o : Except CompileError (List (List Css))}
    (heval : (environment context w).evalNodes [rule] scope w.session = (.ok evaluated, t))
    (hcss : evaluated.1.mapM (layoutRule context) = o) :
    ruleText context rule scope w =
      (o.map fun css => Css.renderAll css.flatten, { w with session := t }) := by
  rw [ruleText_eq heval]
  show (evaluated.1.mapM (layoutRule context) >>= _, _) = _
  rw [hcss]
  cases o <;> rfl

theorem alike_ruleText (hperm : context.targets.Perm targets) (rule : Node) (scope : Scope)
    (w : Writer) :
    Writing.Alike (AlikeText (SameLegacy context targets)) (ruleText context rule scope)
      (ruleText { context with targets } rule scope) w := by
  rcases heval : (environment context w).evalNodes [rule] scope w.session with ⟨o, t⟩
  -- Evaluation does not look at the targets.
  have heval' : (environment { context with targets } w).evalNodes [rule] scope w.session = (o, t) :=
    heval
  refine ⟨{ w with session := t }, ?_⟩
  cases o with
  | error e => exact .inl ⟨e, ruleText_eq heval, ruleText_eq heval'⟩
  | ok evaluated =>
    obtain ⟨e, h, h'⟩ | ⟨css, css', h, h', halike⟩ := alike_layoutRules hperm evaluated.1
    · exact .inl ⟨e, ruleText_of_layout heval h, ruleText_of_layout heval' h'⟩
    · exact .inr ⟨_, _, ruleText_of_layout heval h, ruleText_of_layout heval' h', .rule halike⟩

/-- The items of two runs for the targets in two orders, if imported documents say the same. -/
theorem itemsAlike_targets {load load' : String → List Node → Scope → Writing String}
    (hperm : context.targets.Perm targets)
    (hload : ∀ path nodes scope w, Writing.Alike (AlikeDocument (SameLegacy context targets))
      (load path nodes scope) (load' path nodes scope) w) :
    ItemsAlike (AlikeText (SameLegacy context targets)) context { context with targets } resolver
      resolver load load' where
  environment_eq _ := rfl
  comment text := .refl _
  rule := alike_ruleText hperm
  imported url scope w := by
    rcases asks_or_unasked resolver url with ⟨path, found, hasks⟩ | hunasked
    · refine alike_importItem_of_asks .refl (fun path text text' h => ?_) hload hasks hasks scope w
      obtain ⟨items, items', hitems, rfl, rfl⟩ := h
      exact .document path hitems
    · exact alike_importItem_of_unasked .refl hunasked hunasked scope w

end Items

/-- Documents say the same for both orders, or fail with the same error. -/
theorem alike_documentIn_targets {context : Context} {targets : List Browser}
    {resolver : Option Resolver} (hperm : context.targets.Perm targets) (n : Nat) (path : String)
    (nodes : List Node) (scope : Scope) (w : Writer) :
    Writing.Alike (AlikeDocument (SameLegacy context targets))
      (documentIn context resolver n path nodes scope)
      (documentIn { context with targets } resolver n path nodes scope) w := by
  refine alike_documentIn (fun _ _ => itemsAlike_targets hperm) (fun items items' h => ?_) n path
    nodes scope w
  rw [Page.addAll_empty, Page.addAll_empty]
  exact ⟨items, items', h, rfl, rfl⟩

/-! ## Documents for two orders -/

/-- A document for two orders of the targets. Every declaration has the same copies. Keyframes, on
any level and inside of any rule, are marked for a vendor by the version of the first target of a
kind, and so are declarations inside of them; if all targets of the kind have one version, that is by
the version of any. Apart from marked keyframes and from the order of copies, the text is the same,
and so is the error if there is one. -/
theorem writeDocument_reordered (context : Context) (targets : List Browser)
    (hperm : context.targets.Perm targets) :
    (∀ d, (copies context d context.targets).Perm (copies context d targets)) ∧
    (∀ n name body active css left,
      layoutIn { context with targets } (n + 1) (.block (.keyframes name) body) active =
        .ok (css, left) → IsKeyframesGroup targets name css) ∧
    (∀ rule css, layoutRule { context with targets } rule = .ok css →
      ∀ name body, Node.Inside (.block (.keyframes name) body) rule →
        ∃ group, IsKeyframesGroup targets name group ∧ Css.Within group css) ∧
    (OneVersion context.targets .firefox → OneVersion context.targets .safari →
      legacyTargets context.targets = legacyTargets targets ∧
      (FirstBelow targets .firefox 16 ↔ SomeBelow targets .firefox 16) ∧
      (FirstBelow targets .safari 9 ↔ SomeBelow targets .safari 9)) ∧
    ∀ resolver sheet w,
      Writing.Alike (AlikeDocument (legacyTargets context.targets = legacyTargets targets))
        (writeDocument context resolver sheet) (writeDocument { context with targets } resolver sheet)
        w := by
  refine ⟨fun d => copies_perm context d hperm, fun n name body active css left h => ?_,
    fun rule css h name body hinside => ?_, fun hfirefox hsafari => ⟨?_, ?_, ?_⟩,
    fun resolver sheet w => ?_⟩
  · exact isKeyframesGroup_layoutIn h
  · exact exists_keyframesGroup h hinside
  · unfold legacyTargets targetBelow
    rw [hfirefox.targetVersion_perm hperm, hsafari.targetVersion_perm hperm]
  · exact (hfirefox.perm hperm).firstBelow_iff
  · exact (hsafari.perm hperm).firstBelow_iff
  · exact alike_documentIn_targets hperm Limit.imports.max "" sheet.nodes context.scope.child w

/-- Firefox 15 and Safari 8. -/
def legacyPair : List Browser :=
  [⟨.firefox, Float32.ofBits 0x41700000⟩, ⟨.safari, Float32.ofBits 0x41000000⟩]

theorem oneVersion_legacyPair (kind : BrowserKind) : OneVersion legacyPair kind := by
  intro b hb b' hb' hkind hkind'
  simp only [legacyPair, List.mem_cons, List.not_mem_nil, or_false] at hb hb'
  rcases hb with rfl | rfl <;> rcases hb' with rfl | rfl
  · rfl
  · cases hkind.trans hkind'.symm
  · cases hkind.trans hkind'.symm
  · rfl

/-- Keyframes in a media rule in a style rule in a style rule. -/
def nestedKeyframes : Node :=
  .block (.style ⟨[[.word "a"]]⟩ 1) [.block (.style ⟨[[.word "b"]]⟩ 2)
    [.block (.media "print") [.block (.keyframes "k") []]]]

theorem writeDocument_reordered_pair :
    legacyPair.Perm legacyPair.reverse ∧
    legacyTargets legacyPair = legacyTargets legacyPair.reverse ∧
    (waningInfo.patches upright legacyPair).map Patch.name = ["-moz-transform", "-webkit-transform"] ∧
    (waningInfo.patches upright legacyPair.reverse).map Patch.name =
      ["-webkit-transform", "-moz-transform"] ∧
    (∃ css, layoutRule { targets := legacyPair.reverse } nestedKeyframes = .ok css ∧
      ∃ group, IsKeyframesGroup legacyPair.reverse "k" group ∧ Css.Within group css) ∧
    ∃ w text text', (writeDocument { targets := legacyPair } none importSheet).run {} =
        (.ok text, w) ∧
      (writeDocument { targets := legacyPair.reverse } none importSheet).run {} = (.ok text', w) ∧
      AlikeDocument True text text' := by
  obtain ⟨-, -, hkeyframes, hlegacy, hdocuments⟩ := writeDocument_reordered { targets := legacyPair }
    legacyPair.reverse (List.reverse_perm _).symm
  obtain ⟨hsame, -, -⟩ := hlegacy (oneVersion_legacyPair _) (oneVersion_legacyPair _)
  refine ⟨(List.reverse_perm _).symm, hsame, by decide +kernel, by decide +kernel, ?_, ?_⟩
  · exact ⟨_, rfl, hkeyframes nestedKeyframes _ rfl "k" []
      (.block List.mem_cons_self (.block List.mem_cons_self (.block List.mem_cons_self .self)))⟩
  · obtain ⟨w, ⟨e, hfails, -⟩ | ⟨text, text', h, h', halike⟩⟩ := hdocuments none importSheet {}
    · cases hfails
    · rw [eq_true hsame] at halike
      exact ⟨w, text, text', h, h', halike⟩

/-- With Firefox 20 and Firefox 10, keyframes are marked in one order only. -/
theorem keyframes_of_two_versions :
    (compile { targets := [⟨.firefox, 20⟩, ⟨.firefox, 10⟩] } none
      "@keyframes k\x7bfrom\x7bx:y\x7d\x7d").toOption =
        some "@keyframes k \x7b\n  from \x7b x: y; \x7d\n\x7d" ∧
    (compile { targets := [⟨.firefox, 10⟩, ⟨.firefox, 20⟩] } none
      "@keyframes k\x7bfrom\x7bx:y\x7d\x7d").toOption =
        some ("@-moz-keyframes k \x7b\n  from \x7b x: y; \x7d\n\x7d\n" ++
          "@keyframes k \x7b\n  from \x7b x: y; \x7d\n\x7d") := by
  constructor
  · decide +kernel
  · decide +kernel

end Stylesheet
