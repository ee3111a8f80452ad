import Stylesheet.Proofs.Css.Ancestors
import Stylesheet.Proofs.Scribe.Runs

/-!
# Drawing evaluated rules

The targets that copies are made for are changed for keyframes only. A scribe sets them back whether
the work for them succeeds or not, so that after every rule they are those of the context.

* `Draws`: work of a scribe that changes nothing but the targets.
* `draws_layoutIn`: the CSS of an evaluated node.
-/

namespace Stylesheet

/-! ## Items of flat rules -/

theorem height_le_of_mem_flattenNodes {chain : List Selector} {nodes : List Node}
    {flat : List FlatRule} (h : flattenNodes chain nodes = .ok flat) :
    ∀ rule ∈ flat, ∀ item ∈ rule.items, item.height ≤ Node.heightAll nodes := by
  induction nodes using body_induction generalizing chain flat with
  | nil =>
    cases h
    simp
  | style s depth body ns ihbody ihns =>
    obtain ⟨selector, nested, rest, hbody, hns, rfl⟩ := flattenNodes_style_ok h
    intro rule hrule item hitem
    rw [Node.heightAll, Node.height]
    rcases List.mem_append.1 hrule with hrule | hrule
    · rcases List.mem_append.1 hrule with hrule | hrule
      · have hlow := ihbody hbody rule hrule item hitem
        omega
      · cases List.mem_singleton.1 hrule
        have hlow := Node.height_le_heightAll (List.mem_filter.1 hitem).1
        omega
    · have hlow := ihns hns rule hrule item hitem
      omega
  | other n ns hn ih =>
    rw [flattenNodes_other chain hn] at h
    intro rule hrule item hitem
    have hlow := ih h rule hrule item hitem
    rw [Node.heightAll]
    omega

theorem height_le_of_mem_flattenRule {s : Selector} {depth : Nat} {body : List Node}
    {flat : List FlatRule} (h : flattenRule s depth body = .ok flat) :
    ∀ rule ∈ flat, ∀ item ∈ rule.items, item.height ≤ Node.heightAll body := by
  obtain ⟨nested, hnested, rfl⟩ := flattenRule_ok h
  intro rule hrule item hitem
  rcases List.mem_cons.1 (List.mem_filter.1 hrule).1 with rfl | hrule
  · exact Node.height_le_heightAll (List.mem_filter.1 hitem).1
  · exact height_le_of_mem_flattenNodes hnested rule hrule item hitem

/-! ## Work on the targets -/

/-- The desk with other targets. -/
def Desk.withTargets (d : Desk) (targets : List Browser) : Desk := { d with targets }

/-- Whatever the targets are, a scribe ends with the outcome of the work, and leaves the targets or
sets them to those of the context. -/
def Draws (context : Context) {α : Type} (u : Nat → Scribe α) (work : Layout α) : Prop :=
  ∀ targets, ∃ o left, (left = targets ∨ left = context.targets) ∧
    work targets = o.map (·, left) ∧
    ∀ d : Desk, d.targets = targets → Settles u d (o, d.withTargets left)

namespace Draws

variable {context : Context} {α β : Type} {u : Nat → Scribe α} {work : Layout α}
  {next : Nat → α → Scribe β} {g : α → Layout β}

theorem pure (a : α) : Draws context (fun _ => Pure.pure a) (Pure.pure a) := by
  intro targets
  refine ⟨.ok a, targets, .inl rfl, rfl, ?_⟩
  rintro d rfl
  exact .of_eq fun _ => rfl

theorem ofExcept (o : Except CompileError α) :
    Draws context (fun _ => Scribe.ofExcept o) (liftM o : Layout α) := by
  intro targets
  refine ⟨o, targets, .inl rfl, ?_, ?_⟩
  · cases o <;> rfl
  · rintro d rfl
    cases o <;> exact .of_eq fun _ => rfl

theorem step {v : Nat → Scribe α} (h : Draws context v work) (hu : ∀ n, u (n + 1) = v n) :
    Draws context u work := by
  intro targets
  obtain ⟨o, left, hleft, hwork, hsettles⟩ := h targets
  exact ⟨o, left, hleft, hwork, fun d hd => (hsettles d hd).step fun n => by rw [hu]⟩

theorem bind (h : Draws context u work)
    (hnext : ∀ a targets left, work targets = .ok (a, left) →
      Draws context (fun n => next n a) (g a)) :
    Draws context (fun n => u n >>= next n) (work >>= g) := by
  intro targets
  obtain ⟨o, left, hleft, hwork, hsettles⟩ := h targets
  cases o with
  | error e =>
    refine ⟨.error e, left, hleft, ?_, fun d hd => (hsettles d hd).bind_error⟩
    show (work targets).bind _ = _
    rw [hwork]
    rfl
  | ok a =>
    obtain ⟨o, last, hlast, hrest, hsettles'⟩ := hnext a targets left hwork left
    refine ⟨o, last, ?_, ?_, fun d hd => (hsettles d hd).bind (hsettles' _ rfl)⟩
    · rcases hlast with rfl | rfl
      · exact hleft
      · exact .inr rfl
    · show (work targets).bind _ = _
      rw [hwork]
      exact hrest

theorem get {u : Nat → List Browser → Scribe α} {work : List Browser → Layout α}
    (h : ∀ targets, Draws context (fun n => u n targets) (work targets)) :
    Draws context (fun n => MonadState.get >>= fun d : Desk => u n d.targets)
      (MonadState.get >>= work) := by
  intro targets
  obtain ⟨o, left, hleft, hwork, hsettles⟩ := h targets targets
  refine ⟨o, left, hleft, hwork, ?_⟩
  rintro d rfl
  obtain ⟨n, hn⟩ := hsettles d rfl
  exact ⟨n, hn⟩

theorem mapM {ι : Type} {f : Nat → ι → Scribe α} {g : ι → Layout α} {items : List ι}
    (h : ∀ i ∈ items, Draws context (fun n => f n i) (g i)) :
    Draws context (fun n => items.mapM (f n)) (items.mapM g) := by
  induction items with
  | nil => exact .pure []
  | cons i items ih =>
    simp only [List.mapM_cons]
    refine (h i List.mem_cons_self).bind fun _ _ _ _ => ?_
    exact (ih fun j hj => h j (List.mem_cons_of_mem i hj)).bind fun _ _ _ _ => .pure _

/-- Work for other targets, after which they are those of the context. -/
theorem withTargets (targets : List Browser) (h : Draws context u work) :
    Draws context (fun n => Scribe.drawFor context targets (u n))
      (Stylesheet.withTargets context targets work) := by
  intro start
  obtain ⟨o, left, -, hwork, hsettles⟩ := h targets
  refine ⟨o, context.targets, .inr rfl, ?_, fun d _ => ?_⟩
  · show (work targets).bind _ = _
    rw [hwork]
    cases o <;> rfl
  · have hattempt := (hsettles (d.withTargets targets) rfl).attempt
    have hback : Settles (fun _ => Scribe.setTargets context.targets >>= fun _ => Scribe.ofExcept o)
        (d.withTargets left) (o, d.withTargets context.targets) := by
      cases o <;> exact .of_eq fun _ => rfl
    have hwhole : Settles (fun n => Scribe.attempt (u n) >>= fun o =>
        Scribe.setTargets context.targets >>= fun _ => Scribe.ofExcept o)
        (d.withTargets targets) (o, d.withTargets context.targets) := hattempt.bind hback
    exact hwhole

end Draws

/-! ## Nodes -/

section Nodes

variable {context : Context} {f : Nat → Node → Scribe (List Css)} {g : Node → Layout (List Css)}
  {items : List Node}

theorem draws_block (h : ∀ item ∈ items, Draws context (fun n => f n item) (g item))
    (header : List String) : Draws context (fun n => Scribe.drawBlockBy context (f n) header items)
      (layoutBlockBy context g header items) :=
  Draws.get fun _ => (Draws.mapM h).bind fun _ _ _ _ => .pure _

theorem draws_keyframes (h : ∀ item ∈ items, Draws context (fun n => f n item) (g item))
    (name : String) : Draws context (fun n => Scribe.drawKeyframesBy context (f n) name items)
      (layoutKeyframesBy context g name items) := by
  have hcopies : Draws context (fun n => (legacyTargets context.targets).mapM fun b =>
      Scribe.drawFor context [b] (Scribe.drawBlockBy context (f n)
        ["@" ++ b.vendor.mark ++ "keyframes " ++ name] items)) _ :=
    .mapM fun b _ => (draws_block h _).withTargets [b]
  exact hcopies.bind fun _ _ _ _ => ((draws_block h _).withTargets []).bind fun _ _ _ _ => .pure _

theorem draws_layoutIn {k : Nat} {node : Node} (hheight : node.height ≤ k) :
    Draws context (fun n => Scribe.draw context n node) (layoutIn context k node) := by
  -- Flattened rules are not parts of the rule, so the induction is on the height.
  induction k generalizing node with
  | zero => cases node <;> cases hheight
  | succ k ih =>
    refine Draws.step (v := fun n => Scribe.draw context (n + 1) node) ?_ fun _ => rfl
    cases node with
    | block head body =>
      rw [Node.height] at hheight
      have hitems : ∀ item ∈ body, Draws context (fun n => Scribe.draw context n item)
          (layoutIn context k item) := by
        intro item hitem
        have hlow := Node.height_le_heightAll hitem
        exact ih (by omega)
      cases head with
      | style s depth =>
        refine (Draws.ofExcept (flattenRule s depth body)).bind fun flat targets left hflat => ?_
        have hrule : flattenRule s depth body = .ok flat := by
          cases hresult : flattenRule s depth body with
          | error e =>
            rw [hresult] at hflat
            cases hflat
          | ok rules =>
            rw [hresult] at hflat
            cases hflat
            rfl
        refine Draws.mapM fun rule hmem => draws_block (fun item hitem => ih ?_) _
        have hlow := height_le_of_mem_flattenRule hrule rule hmem item hitem
        omega
      | media query => exact (draws_block hitems _).bind fun _ _ _ _ => .pure _
      | fontFace => exact (draws_block hitems _).bind fun _ _ _ _ => .pure _
      | keyframes name => exact draws_keyframes hitems name
      | atRule name prelude => exact (draws_block hitems _).bind fun _ _ _ _ => .pure _
    | declaration d => exact Draws.get fun _ => .pure _
    | _ => exact .pure _

/-- Rules are drawn one after another, each for the targets of the context. -/
theorem settles_layoutRules {d : Desk} (hd : d.targets = context.targets) (rules : List Node) :
    Settles (fun n => rules.mapM (Scribe.draw context n)) d
      (rules.mapM (layoutRule context), d) := by
  induction rules with
  | nil => exact .of_eq fun _ => rfl
  | cons rule rules ih =>
    obtain ⟨o, left, hleft, hwork, hsettles⟩ :=
      draws_layoutIn (le_refl rule.height) context.targets
    have hrule : layoutRule context rule = o := by
      rw [layoutRule, StateT.run, hwork]
      cases o <;> rfl
    have hdraw := hsettles d hd
    have hsame : d.withTargets left = d := by
      have hleft : left = d.targets := by simpa [hd] using hleft
      rw [hleft]
      rfl
    rw [hsame] at hdraw
    simp only [List.mapM_cons, hrule]
    cases o with
    | error e => exact hdraw.bind_error
    | ok css =>
      refine hdraw.bind ?_
      cases hrest : rules.mapM (layoutRule context) with
      | error e =>
        rw [hrest] at ih
        exact ih.bind_error
      | ok rest =>
        rw [hrest] at ih
        exact ih.bind (.of_eq fun _ => rfl)

end Nodes

end Stylesheet
