import Stylesheet.Proofs.Document.Items
import Stylesheet.Proofs.Scribe.Containment

/-!
# Items joined by newlines

The text of a document is that of its items in the order in which they are run, one newline between
two of them. Items that write nothing leave no trace. The text of an imported document is such a text
again, inside of the item of its import.

* `joinItems`: texts with one newline between them, the empty ones left out.
* `WritesDocument`, `WritesImport`: the texts of documents and of imports inside of one another.
* `writeDocument_joins_items`: the text of a document.
-/

namespace Stylesheet

/-! ## Pages -/

/-- The texts that are not empty, one newline between them. -/
def joinItems (items : List String) : String := "\n".intercalate (items.filter (· ≠ ""))

/-- A new page to which items are added holds their texts, and it is started as soon as one of them is
not empty. -/
theorem Page.addAll_empty (items : List String) :
    Page.addAll {} items = ⟨joinItems items, !(items.filter (· ≠ "")).isEmpty⟩ := by
  induction items using List.reverseRecOn with
  | nil => rfl
  | append_singleton items item ih =>
    have hadd : Page.addAll {} (items ++ [item]) = (Page.addAll {} items).add item :=
      Page.addAll_append {} items [item]
    rw [hadd, ih, joinItems, joinItems, List.filter_append]
    generalize items.filter (· ≠ "") = written
    by_cases hitem : item = ""
    · subst hitem
      rw [List.filter_cons_of_neg (by simp), List.filter_nil, List.append_nil]
      rfl
    · rw [Page.add_of_ne hitem, List.filter_cons_of_pos (by simpa using hitem), List.filter_nil]
      cases written with
      | nil => simp
      | cons first written =>
        rw [String.intercalate_append_of_ne_nil (List.cons_ne_nil _ _) (List.cons_ne_nil _ _)]
        simp

/-! ## Documents inside of one another -/

section Documents

variable (context : Context) (resolver : Option Resolver)

mutual

/-- What a document writes with room for so many imports inside of one another: its items one after
the other, whose texts are joined. -/
inductive WritesDocument : Nat → List Node → Scope → Writer → String → Writer → Prop
  | items {n : Nat} {nodes : List Node} {scope scope' : Scope} {w w' : Writer}
      {imports : String → Scope → StateM Writer String} {items : List RootItem}
      (himports : ∀ url scope w,
        WritesImport n url scope w (imports url scope w).1 (imports url scope w).2)
      (hitems : Root.Steps context imports nodes scope (w.open nodes) items scope' w') :
      WritesDocument (n + 1) nodes scope w (joinItems (items.map RootItem.written)) w'

/-- What an import writes. -/
inductive WritesImport : Nat → String → Scope → Writer → String → Writer → Prop
  | unasked {n : Nat} {url : String} {scope : Scope} {w : Writer} (h : Unasked resolver url) :
      WritesImport n url scope w (importText url) w
  | notFound {n : Nat} {url path : String} {scope : Scope} {w : Writer}
      (h : Asks resolver url path none) :
      WritesImport n url scope w (comment path ++ ("\n" ++ comment "NOT FOUND")) w
  | plain {n : Nat} {url path source : String} {scope : Scope} {w : Writer}
      (h : Asks resolver url path (some source))
      (hplain : ¬ path.endsWith ("." ++ sourceExtension) = true) :
      WritesImport n url scope w (comment path ++ onNewLine (Text.trimEnd source)) w
  | document {n : Nat} {url path source text : String} {scope : Scope} {w w' : Writer}
      {sheet : Sheet} (h : Asks resolver url path (some source))
      (hsource : path.endsWith ("." ++ sourceExtension) = true)
      (hread : Sheet.read source = .ok sheet)
      (hdocument : WritesDocument n sheet.nodes scope.child w text w') :
      WritesImport n url scope w (comment path ++ onNewLine text) w'
  | failed {n : Nat} {url path source : String} {scope : Scope} {w w' : Writer} {e : CompileError}
      (h : Asks resolver url path (some source))
      (hsource : path.endsWith ("." ++ sourceExtension) = true)
      (hfailed : readDocument (documentIn context resolver n) path source scope w =
        (.error e, w')) :
      WritesImport n url scope w (comment path ++ importFailure path e) w'

end

end Documents

section Documents

variable {context : Context} {resolver : Option Resolver} {n : Nat}

/-- An import writes what it should, if the documents that it may hand on do. -/
theorem writesImport_importItem
    (hload : ∀ {path nodes scope w text w'},
      Gives (documentIn context resolver n path nodes scope) w text w' →
      WritesDocument context resolver n nodes scope w text w')
    (url : String) (scope : Scope) (w : Writer) :
    WritesImport context resolver n url scope w
      (importItem resolver (documentIn context resolver n) url scope w).1
      (importItem resolver (documentIn context resolver n) url scope w).2 := by
  rcases asks_or_unasked resolver url with ⟨path, found, hasks⟩ | hunasked
  · cases found with
    | none =>
      rw [importItem_notFound hasks]
      exact .notFound hasks
    | some source =>
      by_cases hsource : path.endsWith ("." ++ sourceExtension) = true
      · rcases hdocument : readDocument (documentIn context resolver n) path source scope w with
          ⟨o, w'⟩
        rw [importItem_document hasks hsource hdocument]
        cases o with
        | error e => exact .failed hasks hsource hdocument
        | ok text =>
          unfold readDocument at hdocument
          cases hread : Sheet.read source with
          | error e =>
            rw [hread] at hdocument
            cases hdocument
          | ok sheet =>
            rw [hread] at hdocument
            exact .document hasks hsource hread (hload hdocument)
      · rw [importItem_plain hasks hsource]
        exact .plain hasks hsource
  · rw [importItem_unasked hunasked]
    exact .unasked hunasked

/-- A document without any room is never written. -/
theorem documentIn_zero_fails {path : String} {nodes : List Node} {scope : Scope} {w w' : Writer}
    {text : String} : ¬ Gives (documentIn context resolver 0 path nodes scope) w text w' := by
  intro h
  obtain ⟨_, _, _, h⟩ := h.of_bind
  cases h

theorem writesDocument_documentIn {path : String} {nodes : List Node} {scope : Scope}
    {w w' : Writer} {text : String}
    (h : Gives (documentIn context resolver n path nodes scope) w text w') :
    WritesDocument context resolver n nodes scope w text w' := by
  -- On the room for imports: a document that is imported has less of it.
  induction n generalizing path nodes scope w text w' with
  | zero => exact (documentIn_zero_fails h).elim
  | succ n ih =>
    obtain ⟨items, scope', hitems, rfl⟩ := steps_documentIn h
    rw [Page.addItems, Page.addAll_empty]
    exact .items (writesImport_importItem ih) hitems

/-- A scribe who writes in place ends with the same text behind what was written before. -/
theorem document_settles {path : String} {nodes : List Node} {scope : Scope} {w w' : Writer}
    {text : String} (hroom : Limit.imports.max ≤ w.session.imports + n)
    (h : Gives (documentIn context resolver n path nodes scope) w text w') {d : Desk}
    (hd : d.writer = w) (htargets : d.targets = context.targets) :
    ∃ d', Settles (fun m => Scribe.document context resolver m path nodes scope) d (.ok (), d') ∧
      d'.out = d.out ++ text ∧ d'.writer = w' := by
  have hagrees : AgreesOnItem context .all resolver
      (fun m => Scribe.document context resolver m path nodes scope)
      (fun r => documentIn context r n path nodes scope) w :=
    agrees_documentIn hroom path nodes scope
  obtain ⟨o, w₁, deeds, hagrees⟩ := hagrees
  have heq : (o, w₁) = (.ok text, w') := hagrees.bounded.symm.trans h
  cases heq
  obtain ⟨out, hout, hsettles⟩ := hagrees.settles d hd htargets
  exact ⟨_, hsettles, hout text rfl, rfl⟩

end Documents

/-- The text of a document: the items that are run at its root, through the branches that are chosen,
the rounds of loops and the bodies of inclusions, have their texts joined by newlines, and so have the
documents in its imports. A scribe who puts a newline before each item, takes it back if nothing
follows, and puts what was written aside for each import, writes the same behind what is there. -/
theorem writeDocument_joins_items (context : Context) (resolver : Option Resolver) (sheet : Sheet)
    {w w' : Writer} {text : String}
    (h : (writeDocument context resolver sheet).run w = (.ok text, w')) :
    (∃ imports items scope,
      (∀ url scope w, WritesImport context resolver 199 url scope w (imports url scope w).1
        (imports url scope w).2) ∧
      Root.Steps context imports sheet.nodes context.scope.child (w.open sheet.nodes) items scope
        w' ∧
      text = "\n".intercalate ((items.map RootItem.written).filter (· ≠ ""))) ∧
    ∀ d : Desk, d.writer = w → d.targets = context.targets →
      ∃ d', (∃ k, ∀ m, k ≤ m → Scribe.document context resolver m "" sheet.nodes
          context.scope.child d = some (.ok (), d')) ∧
        d'.out = d.out ++ text ∧ d'.writer = w' := by
  refine ⟨?_, fun d hd htargets => document_settles (Nat.le_add_left _ _) h hd htargets⟩
  cases writesDocument_documentIn h with
  | items himports hitems => exact ⟨_, _, _, himports, hitems, rfl⟩

/-- One document: two comments with a rule between them that writes nothing. -/
def commentPartial : Resolver where
  read path := if path = "p.scss" then some "/*a*/b\x7b\x7d/*c*/" else none

theorem asks_commentPartial :
    Asks (some commentPartial) "/p.scss" "p.scss" (some "/*a*/b\x7b\x7d/*c*/") := by
  obtain ⟨_, hresolver, hpath, -⟩ := asks_brokenPartial
  cases hresolver
  exact ⟨commentPartial, rfl, hpath, by decide⟩

/-- Whether a text was read as a document that is written as the two comments. -/
def writesComments : Except SyntaxError Sheet → Bool
  | .ok sheet =>
    match (documentIn {} (some commentPartial) 199 "p.scss" sheet.nodes
      (Context.scope {}).child.child (Writer.open {} [])).1 with
    | .ok text => text == "/* a */\n/* c */"
    | _ => false
  | _ => false

theorem commentPartial_written : ∃ w', readDocument (documentIn {} (some commentPartial) 199)
    "p.scss" "/*a*/b\x7b\x7d/*c*/" (Context.scope {}).child (Writer.open {} []) =
      (.ok "/* a */\n/* c */", w') := by
  have h : writesComments (Sheet.read "/*a*/b\x7b\x7d/*c*/") = true := by
    decide +kernel
  unfold writesComments at h
  split at h
  · rename_i sheet hread
    split at h
    · rename_i text htext
      rw [beq_iff_eq.1 h] at htext
      rw [readDocument, hread]
      exact ⟨_, Prod.ext htext rfl⟩
    · cases h
  · cases h

/-- A document with an import and a comment behind it. -/
def importSheet : Sheet := ⟨[.importRule "/p.scss", .comment "x"]⟩

/-- Both documents are joined, the imported one inside of its item. -/
theorem writeDocument_joins_import : ∃ text w,
    (writeDocument {} (some commentPartial) importSheet).run {} = (.ok text, w) ∧
    text = "/* p.scss */\n/* a */\n/* c */\n/* x */" ∧
    ∃ items : List RootItem,
      text = "\n".intercalate ((items.map RootItem.written).filter (· ≠ "")) := by
  obtain ⟨w', hpartial⟩ := commentPartial_written
  have himport := importItem_document asks_commentPartial partial_compiled hpartial
  have hroot : rootNodesIn {} (some commentPartial) (documentIn {} (some commentPartial) 199)
      Limit.includes.max ([] ++ .importRule "/p.scss" :: [.comment "x"])
      ((Context.scope {}).child, {}) (Writer.open {} []) =
        (.ok (_, ⟨"/* p.scss */\n/* a */\n/* c */\n/* x */", true⟩), w') :=
    rootNodesIn_import rootNodesIn_nil himport
  have hrun : (writeDocument {} (some commentPartial) importSheet).run {} =
      (.ok "/* p.scss */\n/* a */\n/* c */\n/* x */", w') := by
    show documentIn {} (some commentPartial) (199 + 1) "" importSheet.nodes _ {} = _
    rw [documentIn, work_bind_ok (openDocument_ok (by decide) _ _)]
    exact work_bind_ok hroot
  obtain ⟨⟨_, items, _, _, _, htext⟩, _⟩ := writeDocument_joins_items _ _ _ hrun
  exact ⟨_, w', hrun, rfl, items, htext⟩

end Stylesheet
