import Stylesheet.Proofs.Scribe.Bodies

/-!
# Agreement on items and pages

A scribe adds the items of a document to its text as it comes to them, while a writer hands a page
from item to item. The two agree if the page that a writer ends with holds the items that the scribe
wrote, in their order; if the scribe fails, the text it has written by then does not matter.

* `Common.Shadows`, `Common.SameReads`: writers and resolvers that are the same as far as two runs
  have something in common.
* `AgreesOnItem`: the text of one item.
* `AgreesAtRoot`: items that are added to a page, with one closure lemma for each way in which root
  items are put together.
-/

namespace Stylesheet

/-! ## Pages -/

/-- Adds items one after another. -/
def Page.addAll (p : Page) (items : List String) : Page := items.foldl Page.add p

theorem Page.addAll_append (p : Page) (items more : List String) :
    p.addAll (items ++ more) = (p.addAll items).addAll more := List.foldl_append

theorem Page.add_of_ne {item : String} (h : item ≠ "") (p : Page) :
    p.add item = ⟨p.text ++ (if p.started then "\n" else "") ++ item, true⟩ := by
  have hitem : item.isEmpty = false := by simpa using h
  cases hstarted : p.started <;> simp [add, hitem, hstarted]

/-- What a page held before its first item stays in front. -/
theorem Page.addAll_behind (out : String) (p : Page) (items : List String) :
    (⟨out ++ p.text, p.started⟩ : Page).addAll items =
      ⟨out ++ (p.addAll items).text, (p.addAll items).started⟩ := by
  induction items generalizing p with
  | nil => rfl
  | cons item items ih =>
    have hadd : (⟨out ++ p.text, p.started⟩ : Page).add item =
        ⟨out ++ (p.add item).text, (p.add item).started⟩ := by
      by_cases hitem : item = ""
      · subst hitem
        rfl
      · simp only [add_of_ne hitem, String.append_assoc]
    show ((⟨out ++ p.text, p.started⟩ : Page).add item).addAll items = _
    rw [hadd, ih]
    rfl

/-- The desk after documents were written. -/
def Desk.turn (d : Desk) (writer : Writer) (out : String) (deeds : List Deed) : Desk :=
  { d with writer, out, history := d.history ++ deeds }

theorem Desk.turn_self (d : Desk) : d.turn d.writer d.out [] = d := by simp [Desk.turn]

theorem Desk.turn_turn (d : Desk) (w w' : Writer) (out out' : String) (deeds more : List Deed) :
    (d.turn w out deeds).turn w' out' more = d.turn w' out' (deeds ++ more) := by
  simp [Desk.turn]

/-- An item that a scribe writes is added to its page. -/
theorem Settles.writeItem {u : Nat → Scribe Unit} {d : Desk} {page : Page} {text : String}
    {w : Writer} {deeds : List Deed} (hout : d.out = page.text)
    (h : Settles u { d with out := d.out ++ if page.started then "\n" else "" }
      (.ok (), d.turn w (d.out ++ (if page.started then "\n" else "") ++ text) deeds)) :
    Settles (fun n => Scribe.writeItem page.started (u n)) d
      (.ok (page.add text).started, d.turn w (page.add text).text deeds) := by
  have hrest : Settles (fun _ => MonadState.get >>= fun d' : Desk =>
      if d'.out.length = (d.out ++ if page.started then "\n" else "").length then
        Scribe.setText d.out >>= fun _ => Pure.pure page.started
      else Pure.pure true)
      (d.turn w (d.out ++ (if page.started then "\n" else "") ++ text) deeds)
      (.ok (page.add text).started, d.turn w (page.add text).text deeds) := by
    refine .of_eq fun _ => ?_
    show (if (d.out ++ (if page.started then "\n" else "") ++ text).length =
        (d.out ++ if page.started then "\n" else "").length then
      Scribe.setText d.out >>= fun _ => Pure.pure page.started else Pure.pure true : Scribe Bool)
        (d.turn w (d.out ++ (if page.started then "\n" else "") ++ text) deeds) = _
    by_cases htext : text = ""
    · subst htext
      rw [if_pos (by simp), hout]
      rfl
    · have hlength : text.length ≠ 0 := by simpa using htext
      rw [if_neg (by rw [String.length_append]; omega), Page.add_of_ne htext, hout]
      rfl
  exact h.bind hrest

/-! ## Work on documents -/

/-- Resolvers for which the common paths are the same. -/
inductive Common.SameReads (common : Common) : Option Resolver → Option Resolver → Prop
  | none : SameReads common none none
  | some {r r₀ : Resolver} (hscoped : r₀.scopedPath = r.scopedPath)
      (hread : ∀ path, common.path path → r₀.read path = r.read path) :
      SameReads common (some r) (some r₀)

/-- A writer that counted less than another and has the common mixins of it. -/
structure Common.Shadows (common : Common) (w w₀ : Writer) : Prop where
  trails : common.Trails w.session w₀.session
  mixins : ∀ name, common.mixin name → w₀.mixins.get? name = w.mixins.get? name

theorem Common.Shadows.sameMixins {common : Common} {w w₀ : Writer} (h : common.Shadows w w₀)
    (context : Context) :
    common.SameMixins (environment context w).layers (environment context w₀).layers := by
  intro name hname
  simp only [environment, Registry.find?, List.findSome?_cons, h.mixins name hname]

theorem Common.Shadows.withSession {common : Common} {w w₀ : Writer} {t t₀ : Session}
    (h : common.Shadows w w₀) (ht : common.Trails t t₀) :
    common.Shadows { w with session := t } { w₀ with session := t₀ } := ⟨ht, h.mixins⟩

section Relations

variable (context : Context) (common : Common) (resolver : Option Resolver) {α : Type}

/-- The work of a scribe on one item agrees with work that gives its text. -/
structure ItemAgreement (u : Nat → Scribe Unit) (b : Option Resolver → Writing String) (w : Writer)
    (o : Except CompileError String) (w' : Writer) (deeds : List Deed) : Prop where
  bounded : b resolver w = (o, w')
  settles : ∀ d : Desk, d.writer = w → d.targets = context.targets →
    ∃ out, (∀ text, o = .ok text → out = d.out ++ text) ∧
      Settles u d (o.map fun _ => (), d.turn w' out deeds)
  accounted : Accounted w.session deeds w'.session
  shadowed : (∀ deed ∈ deeds, deed.IsNeutral common) →
    ∀ resolver₀, common.SameReads resolver resolver₀ → ∀ w₀, common.Shadows w w₀ →
      ∃ w₀', common.Shadows w' w₀' ∧ b resolver₀ w₀ = (o, w₀')

def AgreesOnItem (u : Nat → Scribe Unit) (b : Option Resolver → Writing String) (w : Writer) :
    Prop :=
  ∃ o w' deeds, ItemAgreement context common resolver u b w o w' deeds

/-- The work of a scribe on root items agrees with work that adds them to a page. -/
structure RootAgreement (u : Nat → Bool → Scribe (α × Bool))
    (b : Option Resolver → Page → Writing (α × Page)) (w : Writer) (o : Except CompileError α)
    (items : List String) (w' : Writer) (deeds : List Deed) : Prop where
  bounded : ∀ page, b resolver page w = (o.map (·, page.addAll items), w')
  settles : ∀ (d : Desk) (page : Page), d.writer = w → d.targets = context.targets →
    d.out = page.text → ∃ out, (∀ a, o = .ok a → out = (page.addAll items).text) ∧
      Settles (fun n => u n page.started) d
        (o.map (·, (page.addAll items).started), d.turn w' out deeds)
  accounted : Accounted w.session deeds w'.session
  shadowed : (∀ deed ∈ deeds, deed.IsNeutral common) →
    ∀ resolver₀, common.SameReads resolver resolver₀ → ∀ w₀, common.Shadows w w₀ →
      ∃ w₀', common.Shadows w' w₀' ∧
        ∀ page, b resolver₀ page w₀ = (o.map (·, page.addAll items), w₀')

def AgreesAtRoot (u : Nat → Bool → Scribe (α × Bool))
    (b : Option Resolver → Page → Writing (α × Page)) (w : Writer) : Prop :=
  ∃ o items w' deeds, RootAgreement context common resolver u b w o items w' deeds

end Relations

section Agreement

variable {context : Context} {common : Common} {resolver : Option Resolver} {α β : Type}
  {w : Writer}

namespace AgreesAtRoot

variable {u : Nat → Bool → Scribe (α × Bool)} {b : Option Resolver → Page → Writing (α × Page)}
  {next : Nat → α → Bool → Scribe (β × Bool)}
  {g : Option Resolver → α → Page → Writing (β × Page)}

theorem pure (a : α) (w : Writer) :
    AgreesAtRoot context common resolver (fun _ started => Pure.pure (a, started))
      (fun _ page => Pure.pure (a, page)) w := by
  refine ⟨.ok a, [], w, [], fun _ => rfl, ?_, .nil _, fun _ _ _ w₀ hw => ⟨w₀, hw, fun _ => rfl⟩⟩
  intro d page hw _ hout
  refine ⟨d.out, fun _ _ => hout, .of_eq fun _ => ?_⟩
  rw [← hw, Desk.turn_self]
  rfl

theorem step {v : Nat → Bool → Scribe (α × Bool)} (h : AgreesAtRoot context common resolver v b w)
    (hu : ∀ n, u (n + 1) = v n) : AgreesAtRoot context common resolver u b w := by
  obtain ⟨o, items, w', deeds, h⟩ := h
  refine ⟨o, items, w', deeds, h.bounded, fun d page hw ht hout => ?_, h.accounted, h.shadowed⟩
  obtain ⟨out, htext, hsettles⟩ := h.settles d page hw ht hout
  exact ⟨out, htext, hsettles.step fun n => by rw [hu]⟩

theorem bind (h : AgreesAtRoot context common resolver u b w)
    (hnext : ∀ a w', w.session.Below w'.session →
      AgreesAtRoot context common resolver (fun n => next n a) (fun r => g r a) w') :
    AgreesAtRoot context common resolver
      (fun n started => u n started >>= fun p => next n p.1 p.2)
      (fun r page => b r page >>= fun p => g r p.1 p.2) w := by
  obtain ⟨o, items, w', deeds, h⟩ := h
  cases o with
  | error e =>
    refine ⟨.error e, items, w', deeds, fun page => work_bind_error (h.bounded page), ?_,
      h.accounted, fun hneutral r₀ hr w₀ hw => ?_⟩
    · intro d page hw ht hout
      obtain ⟨out, -, hsettles⟩ := h.settles d page hw ht hout
      exact ⟨out, fun _ h => (nomatch h), hsettles.bind_error⟩
    · obtain ⟨w₀', hw', hb⟩ := h.shadowed hneutral r₀ hr w₀ hw
      exact ⟨w₀', hw', fun page => work_bind_error (hb page)⟩
  | ok a =>
    obtain ⟨o, more, w'', deeds', h'⟩ := hnext a w' h.accounted.below
    refine ⟨o, items ++ more, w'', deeds ++ deeds', fun page => ?_, fun d page hw ht hout => ?_,
      h.accounted.append h'.accounted, fun hneutral r₀ hr w₀ hw => ?_⟩
    · rw [Page.addAll_append]
      exact (work_bind_ok (h.bounded page)).trans (h'.bounded _)
    · obtain ⟨out, hout, hsettles⟩ := h.settles d page hw ht hout
      obtain ⟨out', hout', hsettles'⟩ :=
        h'.settles (d.turn w' out deeds) (page.addAll items) rfl ht (hout a rfl)
      rw [Desk.turn_turn] at hsettles'
      rw [Page.addAll_append]
      exact ⟨out', hout', hsettles.bind hsettles'⟩
    · rw [List.forall_mem_append] at hneutral
      obtain ⟨w₀', hw', hb⟩ := h.shadowed hneutral.1 r₀ hr w₀ hw
      obtain ⟨w₀'', hw'', hb'⟩ := h'.shadowed hneutral.2 r₀ hr w₀' hw'
      refine ⟨w₀'', hw'', fun page => ?_⟩
      rw [Page.addAll_append]
      exact (work_bind_ok (hb page)).trans (hb' _)

/-- Work that looks at the functions and mixins of the documents so far comes first. -/
theorem eval {u : Environment → Nat → Scribe α} {b : Environment → Metered α}
    {next : Nat → α → Bool → Scribe (β × Bool)}
    {g : Option Resolver → α → Page → Writing (β × Page)}
    (h : Agrees common (environment context w).layers (u (environment context w))
      (fun ls => b ⟨context.functions, ls⟩) w.session)
    (hnext : ∀ a t, b (environment context w) w.session = (.ok a, t) → w.session.Below t →
      AgreesAtRoot context common resolver (fun n => next n a) (fun r => g r a)
        { w with session := t }) :
    AgreesAtRoot context common resolver
      (fun n started => Scribe.currentEnvironment context >>= fun env =>
        u env n >>= fun a => next n a started)
      (fun r page => MonadState.get >>= fun w =>
        Writing.ofMetered (b (environment context w)) >>= fun a => g r a page) w := by
  obtain ⟨o, t, deeds, h⟩ := h
  have hmetered : ∀ {w₀ : Writer} {t₀ : Session},
      b (environment context w₀) w₀.session = (o, t₀) →
      Writing.ofMetered (b (environment context w₀)) w₀ = (o, { w₀ with session := t₀ }) := by
    intro w₀ t₀ hb
    rw [Writing.ofMetered, hb]
  have hshadowed : (∀ deed ∈ deeds, deed.IsNeutral common) → ∀ w₀, common.Shadows w w₀ →
      ∃ t₀, common.Trails t t₀ ∧ b (environment context w₀) w₀.session = (o, t₀) :=
    fun hneutral w₀ hw =>
      h.shadowed hneutral (environment context w₀).layers (hw.sameMixins context) _ hw.trails
  have hturn : ∀ d : Desk, d.writer = w →
      d.after t deeds = d.turn { w with session := t } d.out deeds := by
    rintro d rfl
    rfl
  cases o with
  | error e =>
    -- Nothing has been written yet when the work fails.
    refine ⟨.error e, [], { w with session := t }, deeds, fun page => ?_, ?_, h.accounted, ?_⟩
    · exact (work_bind_ok rfl).trans (work_bind_error (hmetered h.bounded))
    · intro d page hw _ _
      have hsettles := h.settles d (by rw [hw])
      rw [hturn d hw] at hsettles
      subst hw
      exact ⟨d.out, fun _ h => (nomatch h), hsettles.bind_error⟩
    · intro hneutral r₀ _ w₀ hw
      obtain ⟨t₀, ht, hb⟩ := hshadowed hneutral w₀ hw
      refine ⟨_, hw.withSession ht, fun page => ?_⟩
      exact (work_bind_ok rfl).trans (work_bind_error (hmetered hb))
  | ok a =>
    obtain ⟨o, items, w', more, h'⟩ := hnext a t h.bounded h.accounted.below
    refine ⟨o, items, w', deeds ++ more, fun page => ?_, ?_, h.accounted.append h'.accounted, ?_⟩
    · exact (work_bind_ok (hmetered h.bounded)).trans (h'.bounded page)
    · intro d page hw ht hout
      have hsettles := h.settles d (by rw [hw])
      rw [hturn d hw] at hsettles
      obtain ⟨out, htext, hsettles'⟩ :=
        h'.settles (d.turn { w with session := t } d.out deeds) page rfl ht hout
      rw [Desk.turn_turn] at hsettles'
      subst hw
      exact ⟨out, htext, hsettles.bind hsettles'⟩
    · intro hneutral r₀ hr w₀ hw
      rw [List.forall_mem_append] at hneutral
      obtain ⟨t₀, ht, hb⟩ := hshadowed hneutral.1 w₀ hw
      obtain ⟨w₀', hw', hb'⟩ := h'.shadowed hneutral.2 r₀ hr _ (hw.withSession ht)
      exact ⟨w₀', hw', fun page => (work_bind_ok (hmetered hb)).trans (hb' page)⟩

/-- A loop agrees if its body does from every writer that counted at least as much. -/
theorem foldlM {ι : Type} {f : Nat → α → ι → Bool → Scribe (α × Bool)}
    {g : Option Resolver → α → ι → Page → Writing (α × Page)} {base : Session}
    (h : ∀ a i w, base.Below w.session →
      AgreesAtRoot context common resolver (fun n => f n a i) (fun r => g r a i) w)
    (items : List ι) (a : α) (hw : base.Below w.session) :
    AgreesAtRoot context common resolver
      (fun n started => items.foldlM (fun p i => f n p.1 i p.2) (a, started))
      (fun r page => items.foldlM (fun p i => g r p.1 i p.2) (a, page)) w := by
  induction items generalizing a w with
  | nil => exact .pure a w
  | cons i items ih =>
    simp only [List.foldlM_cons]
    exact (h a i w hw).bind fun a w' hww => ih a (hw.trans hww)

end AgreesAtRoot

/-- An item is added to the page. -/
theorem AgreesOnItem.item {u : Nat → Scribe Unit} {b : Option Resolver → Writing String}
    (h : AgreesOnItem context common resolver u b w) (a : α) :
    AgreesAtRoot context common resolver
      (fun n started => Scribe.writeItem started (u n) >>= fun started =>
        Pure.pure (a, started))
      (fun r page => b r >>= fun text => Pure.pure (a, page.add text)) w := by
  obtain ⟨o, w', deeds, h⟩ := h
  cases o with
  | error e =>
    refine ⟨.error e, [], w', deeds, fun page => work_bind_error h.bounded, ?_, h.accounted, ?_⟩
    · intro d page hw ht hout
      obtain ⟨out, -, hsettles⟩ :=
        h.settles { d with out := d.out ++ if page.started then "\n" else "" } hw ht
      exact ⟨out, fun _ h => (nomatch h), hsettles.bind_error.bind_error⟩
    · intro hneutral r₀ hr w₀ hw
      obtain ⟨w₀', hw', hb⟩ := h.shadowed hneutral r₀ hr w₀ hw
      exact ⟨w₀', hw', fun page => work_bind_error hb⟩
  | ok text =>
    refine ⟨.ok a, [text], w', deeds, fun page => work_bind_ok h.bounded, ?_, h.accounted, ?_⟩
    · intro d page hw ht hout
      obtain ⟨out, htext, hsettles⟩ :=
        h.settles { d with out := d.out ++ if page.started then "\n" else "" } hw ht
      rw [htext text rfl] at hsettles
      exact ⟨_, fun _ _ => rfl, (hsettles.writeItem hout).bind (.of_eq fun _ => rfl)⟩
    · intro hneutral r₀ hr w₀ hw
      obtain ⟨w₀', hw', hb⟩ := h.shadowed hneutral r₀ hr w₀ hw
      exact ⟨w₀', hw', fun page => work_bind_ok hb⟩

end Agreement

end Stylesheet
