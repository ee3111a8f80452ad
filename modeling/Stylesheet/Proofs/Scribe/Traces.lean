import Stylesheet.Proofs.Document.Comparison
import Stylesheet.Proofs.Scribe.Containment

/-!
# What a failed import leaves

After a document that failed the rest goes on with the counters it advanced and the mixins it
registered. Nothing else of it is left: the rest of the document around it is what it would be if
there were no such document, unless it looks up one of these mixins, exceeds the limit of one of
these counters, or asks for the same document again.

* `Resolver.without`, `Writer.common`: the resolver without a document, and what writers with and
  without that document still have in common.
* `rest_of_imports`: the rest of a document behind an import, with two resolvers.
* `rest_unchanged_by_failed_import`: the comparison.
* `rest_unchanged_by_malformed_import`: the same for a document that cannot be read, which leaves
  neither counters nor mixins.
* `failed_import_changes_rest`: why mixins and counters are excepted.
-/

namespace Stylesheet

/-! ## The comparison -/

/-- The resolver that reports a path as not found. -/
def Resolver.without (r : Resolver) (path : String) : Resolver :=
  { r with read := fun p => if p = path then none else r.read p }

/-- What two writers have in common, if they know the same documents but for one at a path. -/
def Writer.common (w₀ w : Writer) (path : String) : Common where
  mixin name := w.mixins.get? name = w₀.mixins.get? name
  counter c := w.session.used c = w₀.session.used c
  path p := p ≠ path

theorem sameReads_without (w₀ w : Writer) (path : String) (r : Resolver) :
    (w₀.common w path).SameReads (some r) (some (r.without path)) :=
  .some rfl fun _ hne => if_neg hne

theorem shadows_common {w₀ w : Writer} (h : w₀.session.Below w.session) (path : String) :
    (w₀.common w path).Shadows w w₀ :=
  ⟨⟨h, fun _ hc => hc.symm⟩, fun _ hname => hname.symm⟩

section Comparison

variable {context : Context} {r : Resolver} {url path source : String} {n : Nat}

/-- A document that fails has only counted, and registered mixins. -/
theorem below_of_readDocument {resolver : Option Resolver} {scope : Scope} {w w' : Writer}
    {o : Except CompileError String} (hroom : Limit.imports.max ≤ w.session.imports + n)
    (h : readDocument (documentIn context resolver n) path source scope w = (o, w')) :
    w.session.Below w'.session := by
  have hdocument : AgreesOnItem context .all resolver
      (fun m => readDocument (Scribe.document context resolver m) path source scope)
      (fun r => readDocument (documentIn context r n) path source scope) w :=
    agrees_readDocument (fun _ _ _ => agrees_documentIn hroom _ _ _) path source scope
  obtain ⟨o', w'', deeds, hagree⟩ := hdocument
  have heq : (o', w'') = (o, w') := hagree.bounded.symm.trans h
  cases heq
  exact hagree.accounted.below

/-- The rest of a document behind an import with two resolvers, from writers that have something in
common, if a scribe who writes it does nothing that hangs on anything else. -/
theorem rest_of_imports {common : Common} {r₀ : Resolver} {pre : List Node} (post : List Node)
    {start : Scope × Page} {scope : Scope} {page page₀ : Page} {text text₀ : String}
    {w w₁ w₂ w₃ w₀ : Writer} (hsame : common.SameReads (some r) (some r₀))
    (hshadows : common.Shadows w₂ w₀) (hroom : Limit.imports.max ≤ w₂.session.imports + n)
    (hpre : rootNodesIn context (some r) (documentIn context (some r) n) Limit.includes.max pre
      start w = (.ok (scope, page), w₁))
    (hitem : importItem (some r) (documentIn context (some r) n) url scope w₁ = (text, w₂))
    (hpre₀ : rootNodesIn context (some r₀) (documentIn context (some r₀) n) Limit.includes.max pre
      start w = (.ok (scope, page₀), w₃))
    (hitem₀ : importItem (some r₀) (documentIn context (some r₀) n) url scope w₃ = (text₀, w₀)) :
    ∃ (o : Except CompileError (Scope × Bool)) (items : List String) (d : Desk),
      (∃ k, ∀ m, k ≤ m → Scribe.rootNodes context (some r) m post scope true
        { writer := w₂, targets := context.targets } = some (o, d)) ∧
      rootNodesIn context (some r) (documentIn context (some r) n) Limit.includes.max
          (pre ++ .importRule url :: post) start w =
        (o.map fun p => (p.1, (page.add text).addAll items), d.writer) ∧
      ((∀ deed ∈ d.history, deed.IsNeutral common) →
        ∃ w', rootNodesIn context (some r₀) (documentIn context (some r₀) n) Limit.includes.max
            (pre ++ .importRule url :: post) start w =
          (o.map fun p => (p.1, (page₀.add text₀).addAll items), w')) := by
  have hpost : AgreesAtRoot context common (some r)
      (fun m => Scribe.rootNodes context (some r) m post scope)
      (fun r page => rootNodesIn context r (documentIn context r n) Limit.includes.max post
        (scope, page)) w₂ := by
    have hload : ∀ file nodes scope w', w₂.session.Below w'.session →
        AgreesOnItem context common (some r)
          (fun m => Scribe.document context (some r) m file nodes scope)
          (fun r => documentIn context r n file nodes scope) w' := by
      intro file nodes scope w' hw'
      have himports : w₂.session.imports ≤ w'.session.imports := hw'.used .imports
      exact agrees_documentIn (by omega) file nodes scope
    exact agrees_rootNodesIn hload (Nat.le_add_left _ _) (.refl _) post scope
  obtain ⟨o, items, w', deeds, h⟩ := hpost
  obtain ⟨out, -, hsettles⟩ := h.settles { writer := w₂, targets := context.targets } ⟨"", true⟩
    rfl rfl rfl
  have hmap : ∀ (started : Bool) (page : Page),
      (o.map (·, started)).map (fun p => (p.1, page)) = o.map (·, page) := by
    intro started page
    cases o <;> rfl
  refine ⟨_, items, _, hsettles, ?_, fun hneutral => ?_⟩
  · rw [rootNodesIn_import hpre hitem, hmap]
    exact h.bounded _
  · obtain ⟨w'', -, hb⟩ := h.shadowed hneutral _ hsame w₀ hshadows
    refine ⟨w'', ?_⟩
    rw [rootNodesIn_import hpre₀ hitem₀, hmap]
    exact hb _

theorem asks_without (hasks : Asks (some r) url path (some source)) :
    Asks (some (r.without path)) url path none := by
  obtain ⟨_, ⟨⟩, hurl, -⟩ := hasks
  exact ⟨_, rfl, hurl, if_pos rfl⟩

/-- Whether a document is there and fails or is not found makes no difference to what follows its
import, if a scribe who writes that does nothing that hangs on counters and mixins which the two
cases do not have in common, and does not ask for the document again. What precedes the import may
differ in what it writes and registers, but leads to the same scope, and counts no more without the
document. -/
theorem rest_unchanged_by_failed_import {pre : List Node} (post : List Node) {start : Scope × Page}
    {scope : Scope} {page page₀ : Page} {w w₁ w₂ w₀ : Writer} {e : CompileError}
    (hasks : Asks (some r) url path (some source))
    (hsource : path.endsWith ("." ++ sourceExtension) = true)
    (hroom : Limit.imports.max ≤ w₁.session.imports + n)
    (hpre : rootNodesIn context (some r) (documentIn context (some r) n) Limit.includes.max pre
      start w = (.ok (scope, page), w₁))
    (hpre₀ : rootNodesIn context (some (r.without path))
      (documentIn context (some (r.without path)) n) Limit.includes.max pre start w =
        (.ok (scope, page₀), w₀))
    (hbelow₀ : w₀.session.Below w₁.session)
    (hfails : readDocument (documentIn context (some r) n) path source scope w₁ = (.error e, w₂)) :
    ∃ (o : Except CompileError (Scope × Bool)) (items : List String) (d : Desk),
      (∃ k, ∀ m, k ≤ m → Scribe.rootNodes context (some r) m post scope true
        { writer := w₂, targets := context.targets } = some (o, d)) ∧
      rootNodesIn context (some r) (documentIn context (some r) n) Limit.includes.max
          (pre ++ .importRule url :: post) start w =
        (o.map fun p => (p.1, (page.add (comment path ++ importFailure path e)).addAll items),
          d.writer) ∧
      ((∀ deed ∈ d.history, deed.IsNeutral (w₀.common w₂ path)) →
        ∃ w₃, rootNodesIn context (some (r.without path))
            (documentIn context (some (r.without path)) n) Limit.includes.max
            (pre ++ .importRule url :: post) start w =
          (o.map fun p => (p.1, (page₀.add (comment path ++ ("\n" ++ comment "NOT FOUND"))).addAll
            items), w₃)) := by
  have hbelow : w₁.session.Below w₂.session := below_of_readDocument hroom hfails
  have himports : w₁.session.imports ≤ w₂.session.imports := hbelow.used .imports
  exact rest_of_imports post (sameReads_without w₀ w₂ path r)
    (shadows_common (hbelow₀.trans hbelow) path) (by omega) hpre
    (importItem_document hasks hsource hfails) hpre₀ (importItem_notFound (asks_without hasks))

theorem readDocument_malformed {load : String → List Node → Scope → Writing String} {scope : Scope}
    {w : Writer} {e : SyntaxError} (hread : Sheet.read source = .error e) :
    readDocument load path source scope w = (.error (.malformed e), w) := by
  rw [readDocument, hread]
  rfl

/-- A document that cannot be read counts and registers nothing, no more than one that is not found.
So the items of a document, wherever it is imported among them, only differ in the texts of these
imports. -/
theorem itemsAlike_without {load load' : String → List Node → Scope → Writing String}
    {e : SyntaxError} (hfound : r.read path = some source)
    (hsource : path.endsWith ("." ++ sourceExtension) = true) (hread : Sheet.read source = .error e)
    (hload : ∀ file nodes scope w, Writing.Alike (fun _ _ => True) (load file nodes scope)
      (load' file nodes scope) w) :
    ItemsAlike (fun _ _ => True) context context (some r) (some (r.without path)) load load' where
  environment_eq _ := rfl
  comment _ := trivial
  rule rule scope w := .refl (fun _ => trivial) _ w
  imported url scope w := by
    rcases asks_or_unasked (some r) url with ⟨file, found, hasks⟩ | hunasked
    · by_cases hfile : file = path
      · subst hfile
        obtain ⟨_, ⟨⟩, hurl, -⟩ := hasks
        have hasks : Asks (some r) url file (some source) := ⟨_, rfl, hurl, hfound⟩
        exact .lift (importItem_document hasks hsource (readDocument_malformed hread))
          (importItem_notFound (asks_without hasks)) trivial
      · exact alike_importItem_of_asks (fun _ => trivial) (fun _ _ _ _ => trivial) hload hasks
          ((sameReads_without w w path r).asks hfile hasks) scope w
    · exact alike_importItem_of_unasked (fun _ => trivial) hunasked
        ((sameReads_without w w path r).unasked hunasked) scope w

theorem writesAlike_without {e : SyntaxError} (hfound : r.read path = some source)
    (hsource : path.endsWith ("." ++ sourceExtension) = true) (hread : Sheet.read source = .error e)
    (k : Nat) (nodes : List Node) (scope : Scope) (w : Writer) :
    WritesAlike (fun _ _ => True)
      (fun page => rootNodesIn context (some r) (documentIn context (some r) n) k nodes (scope, page))
      (fun page => rootNodesIn context (some (r.without path))
        (documentIn context (some (r.without path)) n) k nodes (scope, page)) w := by
  refine alike_rootNodesIn (itemsAlike_without hfound hsource hread ?_) k nodes scope w
  exact alike_documentIn (fun _ _ => itemsAlike_without hfound hsource hread)
    (fun _ _ _ => trivial) n

theorem isNeutral_common_self {w : Writer} {deed : Deed} (h : deed ≠ .asked path) :
    deed.IsNeutral (w.common w path) := by
  cases deed with
  | asked file => exact fun hfile => h (congrArg Deed.asked hfile)
  | lookedUp name => rfl
  | exceeded counter => rfl
  | document _ | body _ | declaration _ => trivial

/-- With a document that cannot be read, all that has to be known of what follows its import is that
it does not ask for the document again. What precedes the import may have asked for it. -/
theorem rest_unchanged_by_malformed_import {pre : List Node} (post : List Node)
    {start : Scope × Page} {scope : Scope} {page : Page} {w w₁ : Writer} {e : SyntaxError}
    (hasks : Asks (some r) url path (some source))
    (hsource : path.endsWith ("." ++ sourceExtension) = true) (hread : Sheet.read source = .error e)
    (hroom : Limit.imports.max ≤ w₁.session.imports + n)
    (hpre : rootNodesIn context (some r) (documentIn context (some r) n) Limit.includes.max pre
      start w = (.ok (scope, page), w₁)) :
    ∃ (page₀ : Page) (o : Except CompileError (Scope × Bool)) (items : List String) (d : Desk),
      (∃ k, ∀ m, k ≤ m → Scribe.rootNodes context (some r) m post scope true
        { writer := w₁, targets := context.targets } = some (o, d)) ∧
      rootNodesIn context (some r) (documentIn context (some r) n) Limit.includes.max
          (pre ++ .importRule url :: post) start w =
        (o.map fun p => (p.1, (page.add (comment path ++ importFailure path (.malformed e))).addAll
          items), d.writer) ∧
      (.asked path ∉ d.history →
        ∃ w₃, rootNodesIn context (some (r.without path))
            (documentIn context (some (r.without path)) n) Limit.includes.max
            (pre ++ .importRule url :: post) start w =
          (o.map fun p => (p.1, (page₀.add (comment path ++ ("\n" ++ comment "NOT FOUND"))).addAll
            items), w₃)) := by
  have hfound : r.read path = some source := by
    obtain ⟨_, ⟨⟩, -, hfound⟩ := hasks
    exact hfound
  obtain ⟨o, items, items', w', -, hrun, hrun₀⟩ :=
    writesAlike_without hfound hsource hread Limit.includes.max pre start.1 w
  have hends := (hrun start.2).symm.trans hpre
  cases o with
  | error e => cases hends
  | ok scope' =>
    cases hends
    obtain ⟨o, items, d, hscribe, hwith, hwithout⟩ := rest_of_imports post
      (sameReads_without w₁ w₁ path r) (shadows_common (.refl _) path) hroom hpre
      (importItem_document hasks hsource (readDocument_malformed hread)) (hrun₀ start.2)
      (importItem_notFound (asks_without hasks))
    refine ⟨_, o, items, d, hscribe, hwith, fun hnot => hwithout fun deed hdeed => ?_⟩
    exact isNeutral_common_self fun hasked => hnot (hasked ▸ hdeed)

end Comparison

theorem Scribe.rootNodes_missing {context : Context} {resolver : Option Resolver} {n : Nat}
    {d : Desk} {i : Inclusion} {scope : Scope} {e : CompileError} {started : Bool}
    (nodes : List Node)
    (hlimit : d.writer.session.includes < Limit.includes.max)
    (hbody : mixinBody (environment context d.writer).layers scope i = .error e) :
    rootNodes context resolver (n + 2) (.inclusion i :: nodes) scope started d =
      some (.error e, d.after (d.writer.session.bump .includes) [.lookedUp i.name]) := by
  have hcopy : copyBody (environment context d.writer).layers scope i d =
      some (.error e, d.after (d.writer.session.bump .includes) [.lookedUp i.name]) := by
    rw [copyBody, bind_ok (counted_ok ((counts_countInclude i.name).ok _ hlimit)), hbody]
    rfl
  have hexpand : expandInclude (environment context d.writer).layers scope (n + 1) i d =
      some (.error e, d.after (d.writer.session.bump .includes) [.lookedUp i.name]) := by
    rw [expandInclude_succ]
    exact bind_error hcopy
  rw [rootNodes, rootNodesBy, rootNodeBy]
  exact bind_error ((bind_ok rfl).trans (bind_error hexpand))

/-- What follows the broken partial fails as it would without it. -/
theorem rest_fails_after_brokenPartial :
    ∃ w₃ w₄, rootNodesIn {} (some brokenPartial) (documentIn {} (some brokenPartial) 200)
        Limit.includes.max ([] ++ .importRule "/p.scss" :: [.inclusion ⟨"q", none, ⟨1, 1⟩⟩])
        ({}, {}) {} = (.error (.mixinNotRegistered "q"), w₃) ∧
      rootNodesIn {} (some (brokenPartial.without "p.scss"))
        (documentIn {} (some (brokenPartial.without "p.scss")) 200) Limit.includes.max
        ([] ++ .importRule "/p.scss" :: [.inclusion ⟨"q", none, ⟨1, 1⟩⟩]) ({}, {}) {} =
          (.error (.mixinNotRegistered "q"), w₄) := by
  have hpre : ∀ resolver, rootNodesIn {} resolver (documentIn {} resolver 200) Limit.includes.max []
      ({}, {}) {} = (.ok ({}, {}), {}) := fun _ => rootNodesIn_nil
  have hfails : readDocument (documentIn {} (some brokenPartial) 200) "p.scss"
      "@mixin m\x7b\x7d@include n;" {} {} = _ :=
    brokenPartial_fails _ (by decide) (by decide) (Table.get?_empty _)
  obtain ⟨o, items, d, ⟨k, hscribe⟩, hrun, hrun₀⟩ := rest_unchanged_by_failed_import
    [.inclusion ⟨"q", none, ⟨1, 1⟩⟩] asks_brokenPartial partial_compiled (by decide)
    (hpre _) (hpre _) (.refl _) hfails
  have hfind : Registry.find? [Registry.register .empty ⟨"m", [], []⟩, .empty] "q" = none := by
    simp [Registry.find?, Registry.register, Table.get?_insert_of_ne]
  have hresult := (hscribe (k + 2) (Nat.le_add_right k 2)).symm.trans
    (Scribe.rootNodes_missing [] (by decide) (mixinBody_missing hfind))
  obtain ⟨rfl, rfl⟩ := Prod.mk.inj (Option.some.inj hresult)
  -- The only mixin that is looked up is one of which neither document knows.
  obtain ⟨w₄, hw₄⟩ := hrun₀ fun deed hdeed => by
    cases List.mem_singleton.1 hdeed
    exact Table.get?_insert_of_ne _ (by decide) _
  exact ⟨_, w₄, hrun, hw₄⟩

/-! ## Mixins that are left -/

section Inclusion

variable {layers : List Registry} {scope : Scope} {i : Inclusion} {s : Session}

/-- The inclusion of a mixin without parameters and body. -/
theorem expandInclude_nil (hlimit : s.includes < Limit.includes.max) (hargs : i.args = none)
    (h : Registry.find? layers i.name = some ⟨i.name, [], []⟩) :
    expandInclude layers scope i s = (.ok [], s.bump .includes) := by
  have hbody : mixinBody layers scope i = .ok [] := by
    rw [mixinBody, h, hargs]
    rfl
  rw [expandInclude_eq hlimit, hbody, work_bind_ok (ofExcept_eq _ _), spliceNodes]
  rfl

theorem expandInclude_exceeded (hlimit : Limit.includes.max ≤ s.includes) :
    ∃ e, expandInclude layers scope i s = (.error e, s.bump .includes) := by
  obtain ⟨e, herror⟩ := (counts_countInclude i.name).error
  exact ⟨e, work_bind_error (herror s hlimit)⟩

/-- A mixin that includes itself uses up all inclusions. -/
theorem expandIncludeIn_self {j : Inclusion} {n : Nat} (i : Inclusion)
    (hbody : ∀ i : Inclusion, i.name = j.name → i.args = j.args →
      mixinBody layers scope i = .ok [.inclusion j])
    (hname : i.name = j.name) (hargs : i.args = j.args) (hle : s.includes ≤ Limit.includes.max)
    (hs : Limit.includes.max ≤ s.includes + n) : ∃ e, expandIncludeIn layers scope n i s =
      (.error e, { s with includes := Limit.includes.max + 1 }) := by
  -- Each level counts one inclusion, up to the one that exceeds the limit.
  induction n generalizing i s with
  | zero =>
    obtain ⟨e, herror⟩ := (counts_countInclude i.name).error
    refine ⟨e, (work_bind_error (herror s hs)).trans ?_⟩
    have heq : s.includes = Limit.includes.max := le_antisymm hle hs
    rw [Session.bump, heq]
  | succ n ih =>
    rw [expandIncludeIn_succ]
    by_cases hlimit : s.includes < Limit.includes.max
    · have hcopy : inclusionBody layers scope i s = (.ok [.inclusion j], s.bump .includes) := by
        rw [inclusionBody, work_bind_ok ((counts_countInclude i.name).ok s hlimit), ofExcept_eq,
          hbody i hname hargs]
      obtain ⟨e, he⟩ := ih (s := s.bump .includes) j rfl rfl hlimit (by
        show _ ≤ s.includes + 1 + n
        omega)
      refine ⟨e, (work_bind_ok hcopy).trans ?_⟩
      rw [spliceNodes, spliceNode]
      exact work_bind_error he
    · obtain ⟨e, herror⟩ := (counts_countInclude i.name).error
      refine ⟨e, ?_⟩
      have hcopy : inclusionBody layers scope i s = (.error e, s.bump .includes) := by
        rw [inclusionBody, work_bind_error (herror s (Nat.le_of_not_lt hlimit))]
      have heq : s.includes = Limit.includes.max := le_antisymm hle (Nat.le_of_not_lt hlimit)
      rw [work_bind_error hcopy, Session.bump, heq]

end Inclusion

/-- Whether a text was read as the import of `/p.scss` and an inclusion of `m`. -/
def isAfterBroken : Except SyntaxError Sheet → Bool
  | .ok ⟨[.importRule url, .inclusion ⟨name, none, _⟩]⟩ => url == "/p.scss" && name == "m"
  | _ => false

theorem read_afterBroken : ∃ position, Sheet.read "@import'/p.scss';@include m;" =
    .ok ⟨[.importRule "/p.scss", .inclusion ⟨"m", none, position⟩]⟩ := by
  have h : isAfterBroken (Sheet.read "@import'/p.scss';@include m;") = true := by
    decide +kernel
  unfold isAfterBroken at h
  split at h
  · rename_i hread
    simp only [Bool.and_eq_true, beq_iff_eq] at h
    obtain ⟨rfl, rfl⟩ := h
    exact ⟨_, hread⟩
  · cases h

/-- The inclusion of the one mixin that is registered, which has no body. -/
theorem rootNodesIn_registered {resolver : Option Resolver}
    {load : String → List Node → Scope → Writing String} {k : Nat} {scope : Scope} {page : Page}
    {session : Session} (hlimit : session.includes < Limit.includes.max) (name : String)
    (position : Position) :
    rootNodesIn {} resolver load (k + 1) [.inclusion ⟨name, none, position⟩] (scope, page)
        ⟨session, Registry.register .empty ⟨name, [], []⟩⟩ =
      (.ok (scope, page), ⟨session.bump .includes, Registry.register .empty ⟨name, [], []⟩⟩) := by
  have hfind : Registry.find? (environment {} ⟨session, Registry.register .empty
      ⟨name, [], []⟩⟩).layers name = some ⟨name, [], []⟩ := by
    simp [environment, Registry.find?, Registry.register]
  have hexpand : expandInclude _ scope ⟨name, none, position⟩ session =
      (.ok [], session.bump .includes) := expandInclude_nil hlimit rfl hfind
  exact (rootNodesIn_inclusion_nil [] hexpand).trans rootNodesIn_nil

theorem rootNodesIn_unregistered {resolver : Option Resolver}
    {load : String → List Node → Scope → Writing String} {k : Nat} {scope : Scope} {page : Page}
    {session : Session} (hlimit : session.includes < Limit.includes.max) (name : String)
    (position : Position) :
    rootNodesIn {} resolver load k [.inclusion ⟨name, none, position⟩] (scope, page)
        ⟨session, .empty⟩ =
      (.error (.mixinNotRegistered name), ⟨session.bump .includes, .empty⟩) := by
  have hfind : Registry.find? (environment {} ⟨session, .empty⟩).layers name = none := by
    simp [environment, Registry.find?]
  have hexpand : expandInclude _ scope ⟨name, none, position⟩ session =
      (.error (.mixinNotRegistered name), session.bump .includes) :=
    expandInclude_missing hlimit hfind
  exact rootNodesIn_inclusion_error [] hexpand

/-- A document that fails leaves its mixins: the inclusion after the import succeeds, and would not
if there were no such document. -/
theorem brokenPartial_leaves_mixin :
    compile {} (some brokenPartial) "@import'/p.scss';@include m;" =
      .ok (comment "p.scss" ++ importFailure "p.scss" (.mixinNotRegistered "n")) ∧
    compile {} (some (brokenPartial.without "p.scss")) "@import'/p.scss';@include m;" =
      .error (.mixinNotRegistered "m") := by
  obtain ⟨position, hread⟩ := read_afterBroken
  refine ⟨?_, ?_⟩
  · have hfails : readDocument (documentIn {} (some brokenPartial) 199) "p.scss"
        "@mixin m\x7b\x7d@include n;" ({} : Context).scope.child
        ⟨({} : Session).bump .imports, .empty⟩ = _ :=
      brokenPartial_fails _ (by decide) (by decide) (Table.get?_empty _)
    have himport := importItem_document asks_brokenPartial partial_compiled hfails
    have hwhole := compile_of_rootNodes hread ((rootNodesIn_import rootNodesIn_nil himport).trans
      (rootNodesIn_registered (k := 999) (by decide) "m" position))
    rw [hwhole, Page.add_of_ne (by simp [comment])]
    simp [Except.map, importedOutcome]
  · have hunfound : Asks (some (brokenPartial.without "p.scss")) "/p.scss" "p.scss" none :=
      ⟨_, rfl, by cbv, by cbv⟩
    exact compile_of_rootNodes hread ((rootNodesIn_import rootNodesIn_nil
      (importItem_notFound hunfound)).trans (rootNodesIn_unregistered (by decide) "m" position))

/-! ## A partial that includes a mixin in itself -/

/-- One document, whose mixin includes itself. -/
def runawayPartial : Resolver where
  read path := if path = "p.scss" then some "@mixin m\x7b@include m;\x7d@include m;" else none

/-- Whether a text was read as the mixin `m`, which includes itself, and an inclusion of it. -/
def isRunawayPartial : Except SyntaxError Sheet → Bool
  | .ok ⟨[.mixin declared [] [.inclusion ⟨inner, none, _⟩], .inclusion ⟨outer, none, _⟩]⟩ =>
    declared == "m" && inner == "m" && outer == "m"
  | _ => false

theorem read_runawayPartial : ∃ p q, Sheet.read "@mixin m\x7b@include m;\x7d@include m;" =
    .ok ⟨[.mixin "m" [] [.inclusion ⟨"m", none, p⟩], .inclusion ⟨"m", none, q⟩]⟩ := by
  have h : isRunawayPartial (Sheet.read "@mixin m\x7b@include m;\x7d@include m;") = true := by
    decide +kernel
  unfold isRunawayPartial at h
  split at h
  · rename_i hread
    simp only [Bool.and_eq_true, beq_iff_eq] at h
    obtain ⟨⟨rfl, rfl⟩, rfl⟩ := h
    exact ⟨_, _, hread⟩
  · cases h

/-- Whether a text was read as the mixin `k` without a body, the import of `/p.scss` and an
inclusion of `k`. -/
def isAfterRunaway : Except SyntaxError Sheet → Bool
  | .ok ⟨[.mixin declared [] [], .importRule url, .inclusion ⟨name, none, _⟩]⟩ =>
    declared == "k" && url == "/p.scss" && name == "k"
  | _ => false

theorem read_afterRunaway : ∃ p, Sheet.read "@mixin k\x7b\x7d@import'/p.scss';@include k;" =
    .ok ⟨[.mixin "k" [] [], .importRule "/p.scss", .inclusion ⟨"k", none, p⟩]⟩ := by
  have h : isAfterRunaway (Sheet.read "@mixin k\x7b\x7d@import'/p.scss';@include k;") = true := by
    decide +kernel
  unfold isAfterRunaway at h
  split at h
  · rename_i hread
    simp only [Bool.and_eq_true, beq_iff_eq] at h
    obtain ⟨⟨rfl, rfl⟩, rfl⟩ := h
    exact ⟨_, hread⟩
  · cases h

theorem runawayPartial_fails {resolver : Option Resolver} {n : Nat} {w : Writer} (scope : Scope)
    (himports : w.session.imports < Limit.imports.max)
    (hincludes : w.session.includes ≤ Limit.includes.max) :
    ∃ e mixins, readDocument (documentIn {} resolver (n + 1)) "p.scss"
        "@mixin m\x7b@include m;\x7d@include m;" scope w =
      (.error e,
        ⟨{ w.session.bump .imports with includes := Limit.includes.max + 1 }, mixins⟩) := by
  obtain ⟨p, q, hread⟩ := read_runawayPartial
  have hbody : ∀ scope, ∀ i : Inclusion, i.name = "m" → i.args = none →
      mixinBody [w.mixins.register ⟨"m", [], [.inclusion ⟨"m", none, p⟩]⟩, .empty] scope i =
        .ok [.inclusion ⟨"m", none, p⟩] := by
    intro scope i hname hargs
    have hfind : Registry.find? [w.mixins.register ⟨"m", [], [.inclusion ⟨"m", none, p⟩]⟩, .empty]
        "m" = some ⟨"m", [], [.inclusion ⟨"m", none, p⟩]⟩ := by
      simp [Registry.find?, Registry.register]
    rw [mixinBody, hname, hfind, hargs]
    rfl
  obtain ⟨e, hexpand⟩ := expandIncludeIn_self (j := ⟨"m", none, p⟩)
    (s := w.session.bump .imports) ⟨"m", none, q⟩ (hbody scope.child) rfl rfl hincludes
    (Nat.le_add_left Limit.includes.max _)
  refine ⟨e, w.mixins.register ⟨"m", [], [.inclusion ⟨"m", none, p⟩]⟩, ?_⟩
  rw [readDocument, hread]
  dsimp only
  rw [documentIn, work_bind_ok (openDocument_ok himports _ _), rootNodesIn_mixin]
  exact work_bind_error (rootNodesIn_inclusion_error [] hexpand)

theorem rootNodesIn_exceeded {resolver : Option Resolver}
    {load : String → List Node → Scope → Writing String} {k : Nat} {scope : Scope}
    {w : Writer} (hlimit : Limit.includes.max ≤ w.session.includes) (i : Inclusion) :
    ∃ e, ∀ page, rootNodesIn {} resolver load k [.inclusion i] (scope, page) w =
      (.error e, { w with session := w.session.bump .includes }) := by
  obtain ⟨e, hexpand⟩ : ∃ e, expandInclude (environment {} w).layers scope i w.session =
      (.error e, w.session.bump .includes) := expandInclude_exceeded hlimit
  exact ⟨e, fun page => rootNodesIn_inclusion_error [] hexpand⟩

/-- A document that fails can use up all inclusions: the one after the import is not allowed any
more, and would be if there were no such document. -/
theorem runawayPartial_uses_up_inclusions :
    (∃ e, compile {} (some runawayPartial) "@mixin k\x7b\x7d@import'/p.scss';@include k;" =
      .error e) ∧
    compile {} (some (runawayPartial.without "p.scss"))
      "@mixin k\x7b\x7d@import'/p.scss';@include k;" =
        .ok (comment "p.scss" ++ ("\n" ++ comment "NOT FOUND")) := by
  obtain ⟨position, hread⟩ := read_afterRunaway
  have hpre : ∀ resolver, rootNodesIn {} resolver (documentIn {} resolver 199) (999 + 1)
      [.mixin "k" [] []] (({} : Context).scope.child, {})
      ⟨({} : Session).bump .imports, Registry.register .empty ⟨"k", [], []⟩⟩ =
        (.ok (({} : Context).scope.child, {}),
          ⟨({} : Session).bump .imports, Registry.register .empty ⟨"k", [], []⟩⟩) := by
    intro resolver
    rw [rootNodesIn_mixin]
    exact rootNodesIn_nil
  refine ⟨?_, ?_⟩
  · have hasks : Asks (some runawayPartial) "/p.scss" "p.scss"
        (some "@mixin m\x7b@include m;\x7d@include m;") := ⟨_, rfl, by cbv, by cbv⟩
    obtain ⟨e, mixins, hfails⟩ : ∃ e mixins, readDocument (documentIn {} (some runawayPartial) 199)
        "p.scss" "@mixin m\x7b@include m;\x7d@include m;" ({} : Context).scope.child
        ⟨({} : Session).bump .imports, Registry.register .empty ⟨"k", [], []⟩⟩ =
          (.error e, ⟨_, mixins⟩) :=
      runawayPartial_fails _ (by decide) (by decide)
    have himport := importItem_document hasks partial_compiled hfails
    obtain ⟨e', hafter⟩ := rootNodesIn_exceeded
      (w := ⟨{ (({} : Session).bump .imports).bump .imports with
        includes := Limit.includes.max + 1 }, mixins⟩)
      (Nat.le_succ Limit.includes.max) ⟨"k", none, position⟩
    exact ⟨e', compile_of_rootNodes hread ((rootNodesIn_import (hpre _) himport).trans (hafter _))⟩
  · have hunfound : Asks (some (runawayPartial.without "p.scss")) "/p.scss" "p.scss" none :=
      ⟨_, rfl, by cbv, by cbv⟩
    have hwhole := compile_of_rootNodes hread ((rootNodesIn_import (hpre _)
      (importItem_notFound hunfound)).trans (rootNodesIn_registered (by decide) "k" position))
    rw [hwhole, Page.add_of_ne (by simp [comment])]
    simp [Except.map]

/-- What follows a failed import can succeed or fail where it would not without the document: by a
mixin that the document registered, and by a counter that it advanced. -/
theorem failed_import_changes_rest :
    (compile {} (some brokenPartial) "@import'/p.scss';@include m;" =
        .ok (comment "p.scss" ++ importFailure "p.scss" (.mixinNotRegistered "n")) ∧
      compile {} (some (brokenPartial.without "p.scss")) "@import'/p.scss';@include m;" =
        .error (.mixinNotRegistered "m")) ∧
    (∃ e, compile {} (some runawayPartial) "@mixin k\x7b\x7d@import'/p.scss';@include k;" =
        .error e) ∧
      compile {} (some (runawayPartial.without "p.scss"))
        "@mixin k\x7b\x7d@import'/p.scss';@include k;" =
          .ok (comment "p.scss" ++ ("\n" ++ comment "NOT FOUND")) :=
  ⟨brokenPartial_leaves_mixin, runawayPartial_uses_up_inclusions⟩

end Stylesheet
