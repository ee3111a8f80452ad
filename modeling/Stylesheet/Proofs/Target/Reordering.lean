import Stylesheet.Proofs.Target.Copies

/-!
# Rules for reordered targets

What a rule is laid out as for the same targets in another order. Copies of declarations change places
with one another and nothing else, except in keyframes: a copy of keyframes is written for the first
target of a kind, and which one is the first depends on the order.

* `copies_perm`: the copies of a declaration.
* `Css.Alike`: trees that differ in the order of copies, and in copies of keyframes.
* `Layout.Alike`: work that comes out alike.
* `layoutKeyframesBy_eq`: what keyframes are laid out as.
* `alike_layoutIn`: layouts for two orders of the targets.
-/

namespace Stylesheet

/-! ## Copies -/

section Copies

variable {targets targets' : List Browser}

theorem PropertyInfo.patches_perm (info : PropertyInfo) (d : Declaration)
    (h : targets.Perm targets') : (info.patches d targets).Perm (info.patches d targets') := by
  unfold patches
  split
  · refine List.Perm.map _ ?_
    refine (List.perm_ext_iff_of_nodup (nodup_vendorsFrom _) (nodup_vendorsFrom _)).2 fun v => ?_
    simp only [mem_vendorsFrom, h.mem_iff]
  · exact .refl _

variable (context : Context)

theorem copies_perm (d : Declaration) (h : targets.Perm targets') :
    (copies context d targets).Perm (copies context d targets') := by
  unfold copies
  split
  · exact PropertyInfo.patches_perm _ d h
  · exact .refl _

theorem isCondensed_eq_of_perm (items : List Node) (h : targets.Perm targets') :
    isCondensed context items targets = isCondensed context items targets' := by
  have hlength (d : Declaration) : (layoutDeclaration context d targets).length =
      (layoutDeclaration context d targets').length := by
    simp [layoutDeclaration, (copies_perm context d h).length_eq]
  rw [Bool.eq_iff_iff, isCondensed_iff, isCondensed_iff]
  simp only [hlength]

end Copies

/-! ## Trees -/

namespace Css

/-- A declaration whose name is marked for a vendor. -/
def IsCopy (name : String) (css : Css) : Prop :=
  ∃ (v : Vendor) (value : String), css = .declaration (v.mark ++ name) value

/-- Keyframes that are marked for a vendor. -/
def IsKeyframesCopy (name : String) (css : Css) : Prop :=
  ∃ (v : Vendor) (condensed : Bool) (body : List Css),
    css = .block ["@" ++ v.mark ++ "keyframes " ++ name] condensed body

/-- Trees that are the same but for the order of the copies of each declaration, and for the copies
of keyframes unless `same`. -/
inductive Alike (same : Prop) : List Css → List Css → Prop
  | nil : Alike same [] []
  | declaration {name value : String} {copies copies' rest rest' : List Css}
      (hcopies : copies.Perm copies') (hmarked : ∀ css ∈ copies, css.IsCopy name)
      (hrest : Alike same rest rest') :
      Alike same (copies ++ .declaration name value :: rest)
        (copies' ++ .declaration name value :: rest')
  | statement {text : String} {rest rest' : List Css} (hrest : Alike same rest rest') :
      Alike same (.statement text :: rest) (.statement text :: rest')
  | block {header : List String} {condensed : Bool} {body body' rest rest' : List Css}
      (hbody : Alike same body body') (hrest : Alike same rest rest') :
      Alike same (.block header condensed body :: rest) (.block header condensed body' :: rest')
  | keyframes {name : String} {condensed : Bool} {copies copies' body body' rest rest' : List Css}
      (hmarked : ∀ css ∈ copies ++ copies', css.IsKeyframesCopy name)
      (hcopies : same → Alike same copies copies') (hbody : Alike same body body')
      (hrest : Alike same rest rest') :
      Alike same (copies ++ .block ["@keyframes " ++ name] condensed body :: rest)
        (copies' ++ .block ["@keyframes " ++ name] condensed body' :: rest')

namespace Alike

variable {same : Prop} {items items' more more' : List Css}

theorem append (h : Alike same items items') (hmore : Alike same more more') :
    Alike same (items ++ more) (items' ++ more') := by
  induction h with
  | nil => exact hmore
  | declaration hcopies hmarked _ ih =>
    simp only [List.append_assoc, List.cons_append]
    exact .declaration hcopies hmarked ih
  | statement _ ih => exact .statement ih
  | block hbody _ _ ih => exact .block hbody ih
  | keyframes hmarked hcopies hbody _ _ _ ih =>
    simp only [List.append_assoc, List.cons_append]
    exact .keyframes hmarked hcopies hbody ih

theorem flatten {bodies bodies' : List (List Css)} (h : List.Forall₂ (Alike same) bodies bodies') :
    Alike same bodies.flatten bodies'.flatten := by
  induction h with
  | nil => exact .nil
  | cons hbody _ ih => exact hbody.append ih

theorem of_each (h : List.Forall₂ (fun css css' => Alike same [css] [css']) items items') :
    Alike same items items' := by
  induction h with
  | nil => exact .nil
  | cons hfirst _ ih => exact hfirst.append ih

end Alike

end Css

theorem alike_layoutDeclaration (same : Prop) (context : Context) (d : Declaration)
    {targets targets' : List Browser} (h : targets.Perm targets') :
    Css.Alike same (layoutDeclaration context d targets) (layoutDeclaration context d targets') := by
  refine .declaration ((copies_perm context d h).map _) (fun css hcss => ?_) .nil
  obtain ⟨p, hp, rfl⟩ := List.mem_map.1 hcss
  have hwritten : (p.name, p.value.css) ∈ writtenCopies context d targets :=
    List.mem_map.2 ⟨p, hp, rfl⟩
  obtain ⟨v, hv⟩ := exists_vendor_of_mem_writtenCopies hwritten
  exact ⟨v, p.value.css, by rw [← hv]⟩

/-! ## Work -/

/-- Work for two lists of targets that comes out alike: it fails for both with the same error, or for
neither, and the results are related if the targets were the same but for their order. -/
def Layout.Alike {α β : Type} (R : α → β → Prop) (work : Layout α) (work' : Layout β) : Prop :=
  ∀ targets targets',
    (∃ e, work targets = .error e ∧ work' targets' = .error e) ∨
    ∃ a a' left left', work targets = .ok (a, left) ∧ work' targets' = .ok (a', left') ∧
      (targets.Perm targets' → R a a' ∧ left.Perm left')

theorem Layout.bind_ok {α β : Type} {work : Layout α} {next : α → Layout β}
    {targets left : List Browser} {a : α} (h : work targets = .ok (a, left)) :
    (work >>= next) targets = next a left := by
  show (work targets >>= fun x => next x.1 x.2) = _
  rw [h]
  rfl

theorem Layout.bind_error {α β : Type} {work : Layout α} {next : α → Layout β}
    {targets : List Browser} {e : CompileError} (h : work targets = .error e) :
    (work >>= next) targets = .error e := by
  show (work targets >>= fun x => next x.1 x.2) = _
  rw [h]
  rfl

namespace Layout.Alike

variable {α α' β β' ι : Type} {R : α → α' → Prop} {S : β → β' → Prop} {work : Layout α}
  {work' : Layout α'}

theorem pure {a : α} {a' : α'} (h : R a a') : Alike R (pure a) (pure a') :=
  fun _ _ => .inr ⟨a, a', _, _, rfl, rfl, fun hperm => ⟨h, hperm⟩⟩

theorem bind {next : α → Layout β} {next' : α' → Layout β'} (h : Alike R work work')
    (hnext : ∀ a a', Alike (fun b b' => R a a' → S b b') (next a) (next' a')) :
    Alike S (work >>= next) (work' >>= next') := by
  intro targets targets'
  obtain ⟨e, hwork, hwork'⟩ | ⟨a, a', left, left', hwork, hwork', hrelated⟩ := h targets targets'
  · exact .inl ⟨e, bind_error hwork, bind_error hwork'⟩
  · rw [bind_ok hwork, bind_ok hwork']
    obtain hfails | ⟨b, b', last, last', hb, hb', hlast⟩ := hnext a a' left left'
    · exact .inl hfails
    · refine .inr ⟨b, b', last, last', hb, hb', fun hperm => ?_⟩
      obtain ⟨ha, hleft⟩ := hrelated hperm
      obtain ⟨hS, hperm'⟩ := hlast hleft
      exact ⟨hS ha, hperm'⟩

theorem map {f : α → β} {f' : α' → β'} (h : Alike R work work')
    (hf : ∀ a a', R a a' → S (f a) (f' a')) :
    Alike S (do return f (← work)) (do return f' (← work')) :=
  h.bind fun a a' => pure (hf a a')

/-- Work that a common outcome comes first of. -/
theorem lift (o : Except CompileError ι) {next : ι → Layout β} {next' : ι → Layout β'}
    (h : ∀ i, Alike S (next i) (next' i)) :
    Alike S (liftM o >>= next) (liftM o >>= next') := by
  intro targets targets'
  cases o with
  | error e => exact .inl ⟨e, bind_error rfl, bind_error rfl⟩
  | ok i => exact h i targets targets'

theorem mapM {f : ι → Layout α} {f' : ι → Layout α'} (h : ∀ i, Alike R (f i) (f' i))
    (items : List ι) : Alike (List.Forall₂ R) (items.mapM f) (items.mapM f') := by
  induction items with
  | nil => exact pure .nil
  | cons i items ih =>
    rw [List.mapM_cons, List.mapM_cons]
    refine (h i).bind fun a a' => ih.bind fun as as' => pure ?_
    exact fun has ha => .cons ha has

/-- Whether work fails does not depend on the targets. -/
theorem fails_or_succeeds (h : Alike R work work') :
    (∃ e, (∀ targets, work targets = .error e) ∧ ∀ targets, work' targets = .error e) ∨
    (∀ targets, ∃ a left, work targets = .ok (a, left)) ∧
      ∀ targets, ∃ a left, work' targets = .ok (a, left) := by
  rcases h [] [] with ⟨e, hwork, hwork'⟩ | ⟨a, a', left, left', hwork, hwork', -⟩
  · refine .inl ⟨e, fun targets => ?_, fun targets => ?_⟩
    · rcases h targets [] with ⟨e', hfails, hfails'⟩ | ⟨_, _, _, _, _, hgives, _⟩
      · rw [hwork'] at hfails'
        cases hfails'
        exact hfails
      · rw [hwork'] at hgives
        cases hgives
    · rcases h [] targets with ⟨e', hfails, hfails'⟩ | ⟨_, _, _, _, hgives, _, _⟩
      · rw [hwork] at hfails
        cases hfails
        exact hfails'
      · rw [hwork] at hgives
        cases hgives
  · refine .inr ⟨fun targets => ?_, fun targets => ?_⟩
    · rcases h targets [] with ⟨e, _, hfails⟩ | ⟨_, _, _, _, hgives, _, _⟩
      · rw [hwork'] at hfails
        cases hfails
      · exact ⟨_, _, hgives⟩
    · rcases h [] targets with ⟨e, hfails, _⟩ | ⟨_, _, _, _, _, hgives, _⟩
      · rw [hwork] at hfails
        cases hfails
      · exact ⟨_, _, hgives⟩

end Layout.Alike

/-! ## Keyframes -/

section Keyframes

variable {context : Context} {layout : Node → Layout (List Css)} {items : List Node}
  {bodies : List Browser → List (List Css)} {left : List Browser → List Browser}

/-- A block that is laid out for the given targets only. -/
def blockFor (context : Context) (bodies : List Browser → List (List Css)) (items : List Node)
    (header : List String) (targets : List Browser) : Css :=
  .block header (isCondensed context items targets) (bodies targets).flatten

theorem withTargets_block
    (h : ∀ targets, items.mapM layout targets = .ok (bodies targets, left targets))
    (header : List String) (only targets : List Browser) :
    withTargets context only (layoutBlockBy context layout header items) targets =
      .ok (blockFor context bodies items header only, context.targets) := by
  have hblock : layoutBlockBy context layout header items only =
      .ok (blockFor context bodies items header only, left only) :=
    (Layout.bind_ok rfl).trans (Layout.bind_ok (h only))
  exact (Layout.bind_ok rfl).trans ((Layout.bind_ok hblock).trans rfl)

/-- What keyframes are laid out as: a block for each old target alone, and one for no target at all.
The targets that copies were written for before do not matter. -/
theorem layoutKeyframesBy_eq
    (h : ∀ targets, items.mapM layout targets = .ok (bodies targets, left targets)) (name : String)
    (targets : List Browser) :
    layoutKeyframesBy context layout name items targets =
      .ok ((legacyTargets context.targets).map (fun b => blockFor context bodies items
          ["@" ++ b.vendor.mark ++ "keyframes " ++ name] [b]) ++
        [blockFor context bodies items ["@keyframes " ++ name] []], context.targets) := by
  have hcopies : ∀ (old targets : List Browser), ∃ after,
      old.mapM (fun b => withTargets context [b]
        (layoutBlockBy context layout ["@" ++ b.vendor.mark ++ "keyframes " ++ name] items)) targets =
      .ok (old.map fun b => blockFor context bodies items
        ["@" ++ b.vendor.mark ++ "keyframes " ++ name] [b], after) := by
    intro old
    induction old with
    | nil => exact fun targets => ⟨targets, rfl⟩
    | cons b old ih =>
      intro targets
      obtain ⟨after, hold⟩ := ih context.targets
      rw [List.mapM_cons, Layout.bind_ok (withTargets_block h _ [b] targets), Layout.bind_ok hold]
      exact ⟨after, rfl⟩
  obtain ⟨after, hold⟩ := hcopies (legacyTargets context.targets) targets
  rw [layoutKeyframesBy, Layout.bind_ok hold, Layout.bind_ok (withTargets_block h _ [] after)]
  rfl

theorem layoutKeyframesBy_error {e : CompileError}
    (h : ∀ targets, items.mapM layout targets = .error e) (name : String) (targets : List Browser) :
    layoutKeyframesBy context layout name items targets = .error e := by
  have hblock (header : List String) (only targets : List Browser) :
      withTargets context only (layoutBlockBy context layout header items) targets = .error e :=
    (Layout.bind_ok rfl).trans
      (Layout.bind_error ((Layout.bind_ok rfl).trans (Layout.bind_error (h only))))
  rw [layoutKeyframesBy]
  cases legacyTargets context.targets with
  | nil =>
    exact (Layout.bind_ok rfl).trans (Layout.bind_error (hblock _ _ _))
  | cons b old =>
    rw [List.mapM_cons]
    exact Layout.bind_error (Layout.bind_error (hblock _ _ _))

end Keyframes

/-! ## Rules -/

section Rules

variable (context : Context) (targets : List Browser)

/-- Keyframes have the same copies for both orders of the targets. -/
def SameLegacy : Prop := legacyTargets context.targets = legacyTargets targets

variable {context targets} {layout layout' : Node → Layout (List Css)}

theorem alike_block
    (h : ∀ node, Layout.Alike (Css.Alike (SameLegacy context targets)) (layout node) (layout' node))
    (header : List String) (items : List Node) :
    Layout.Alike (fun css css' => Css.Alike (SameLegacy context targets) [css] [css'])
      (layoutBlockBy context layout header items)
      (layoutBlockBy { context with targets } layout' header items) := by
  intro before before'
  have hget : layoutBlockBy context layout header items before =
      (items.mapM layout >>= fun body => Pure.pure
        (Css.block header (isCondensed context items before) body.flatten)) before := rfl
  have hget' : layoutBlockBy { context with targets } layout' header items before' =
      (items.mapM layout' >>= fun body => Pure.pure
        (Css.block header (isCondensed context items before') body.flatten)) before' := rfl
  rw [hget, hget']
  obtain ⟨e, hbody, hbody'⟩ | ⟨body, body', left, left', hbody, hbody', hrelated⟩ :=
    Layout.Alike.mapM h items before before'
  · exact .inl ⟨e, Layout.bind_error hbody, Layout.bind_error hbody'⟩
  · refine .inr ⟨_, _, left, left', Layout.bind_ok hbody, Layout.bind_ok hbody', fun hperm => ?_⟩
    obtain ⟨hbodies, hleft⟩ := hrelated hperm
    rw [isCondensed_eq_of_perm context items hperm]
    exact ⟨.block (.flatten hbodies) .nil, hleft⟩

theorem alike_keyframes (hperm : context.targets.Perm targets)
    (h : ∀ node, Layout.Alike (Css.Alike (SameLegacy context targets)) (layout node) (layout' node))
    (name : String) (items : List Node) :
    Layout.Alike (Css.Alike (SameLegacy context targets))
      (layoutKeyframesBy context layout name items)
      (layoutKeyframesBy { context with targets } layout' name items) := by
  intro before before'
  have hitems := Layout.Alike.mapM h items
  obtain ⟨e, hfails, hfails'⟩ | ⟨hgives, hgives'⟩ := hitems.fails_or_succeeds
  · exact .inl ⟨e, layoutKeyframesBy_error hfails name before,
      layoutKeyframesBy_error hfails' name before'⟩
  · choose bodies left hgives using hgives
    choose bodies' left' hgives' using hgives'
    refine .inr ⟨_, _, _, _, layoutKeyframesBy_eq hgives name before,
      layoutKeyframesBy_eq hgives' name before', fun _ => ⟨?_, hperm⟩⟩
    have hbodies (only : List Browser) : Css.Alike (SameLegacy context targets)
        (bodies only).flatten (bodies' only).flatten := by
      obtain ⟨e, hfails, -⟩ | ⟨_, _, _, _, hbody, hbody', hrelated⟩ := hitems only only
      · rw [hgives only] at hfails
        cases hfails
      · rw [hgives only] at hbody
        rw [hgives' only] at hbody'
        cases hbody
        cases hbody'
        exact .flatten (hrelated (.refl _)).1
    refine .keyframes (fun css hcss => ?_) (fun hsame => ?_) (hbodies []) .nil
    · rw [List.mem_append, List.mem_map, List.mem_map] at hcss
      obtain ⟨b, -, rfl⟩ | ⟨b, -, rfl⟩ := hcss
      · exact ⟨b.vendor, _, _, rfl⟩
      · exact ⟨b.vendor, _, _, rfl⟩
    · rw [SameLegacy] at hsame
      rw [hsame]
      refine .of_each ?_
      rw [List.forall₂_map_left_iff, List.forall₂_map_right_iff, List.forall₂_same]
      exact fun b _ => .block (hbodies [b]) .nil

theorem alike_layoutIn (hperm : context.targets.Perm targets) (n : Nat) (node : Node) :
    Layout.Alike (Css.Alike (SameLegacy context targets)) (layoutIn context n node)
      (layoutIn { context with targets } n node) := by
  -- On the room for blocks, since the flat rules of a style rule are no parts of it.
  induction n generalizing node with
  | zero => exact .pure .nil
  | succ n ih =>
    have hsingle (header : List String) (body : List Node) :
        Layout.Alike (Css.Alike (SameLegacy context targets))
          (do return [← layoutBlockBy context (layoutIn context n) header body])
          (do return [← layoutBlockBy { context with targets }
            (layoutIn { context with targets } n) header body]) :=
      (alike_block ih header body).map fun _ _ h => h
    cases node with
    | declaration d =>
      intro before before'
      exact .inr ⟨_, _, _, _, rfl, rfl, fun h =>
        ⟨alike_layoutDeclaration (SameLegacy context targets) context d h, h⟩⟩
    | statement name prelude => exact .pure (.statement .nil)
    | importRule url => exact .pure (.statement .nil)
    | block head body =>
      cases head with
      | style s depth =>
        refine .lift (flattenRule s depth body) fun flat => ?_
        intro before before'
        have hflat := Layout.Alike.mapM
          (fun rule : FlatRule => alike_block ih rule.selector.css rule.items) flat
        obtain hfails | ⟨css, css', left, left', hcss, hcss', hrelated⟩ := hflat before before'
        · exact .inl hfails
        · refine .inr ⟨css, css', left, left', hcss, hcss', fun h => ?_⟩
          exact ⟨.of_each (hrelated h).1, (hrelated h).2⟩
      | media query => exact hsingle _ body
      | fontFace => exact hsingle _ body
      | keyframes name => exact alike_keyframes hperm ih name body
      | atRule name prelude => exact hsingle _ body
    | «mixin» _ _ _ => exact .pure .nil
    | assignment _ => exact .pure .nil
    | branch _ _ _ => exact .pure .nil
    | loop _ _ _ _ _ => exact .pure .nil
    | inclusion _ => exact .pure .nil
    | comment _ => exact .pure .nil

/-- The CSS of a rule is what its layout gives, with room for all of its blocks. -/
theorem layoutRule_eq (context : Context) (rule : Node) : layoutRule context rule =
    (layoutIn context rule.height rule context.targets).map Prod.fst := by
  unfold layoutRule StateT.run
  cases layoutIn context rule.height rule context.targets with
  | error e => rfl
  | ok r => rfl

theorem alike_layoutRule (hperm : context.targets.Perm targets) (rule : Node) :
    (∃ e, layoutRule context rule = .error e ∧
      layoutRule { context with targets } rule = .error e) ∨
    ∃ css css', layoutRule context rule = .ok css ∧
      layoutRule { context with targets } rule = .ok css' ∧
      Css.Alike (SameLegacy context targets) css css' := by
  rw [layoutRule_eq, layoutRule_eq]
  obtain ⟨e, h, h'⟩ | ⟨css, css', left, left', h, h', hrelated⟩ :=
    alike_layoutIn hperm rule.height rule context.targets targets
  · rw [h, h']
    exact .inl ⟨e, rfl, rfl⟩
  · rw [h, h']
    exact .inr ⟨css, css', rfl, rfl, (hrelated hperm).1⟩

/-- Rules are laid out alike, or fail with the same error. -/
theorem alike_layoutRules (hperm : context.targets.Perm targets) (rules : List Node) :
    (∃ e, rules.mapM (layoutRule context) = .error e ∧
      rules.mapM (layoutRule { context with targets }) = .error e) ∨
    ∃ css css', rules.mapM (layoutRule context) = .ok css ∧
      rules.mapM (layoutRule { context with targets }) = .ok css' ∧
      Css.Alike (SameLegacy context targets) css.flatten css'.flatten := by
  induction rules with
  | nil => exact .inr ⟨[], [], rfl, rfl, .nil⟩
  | cons rule rules ih =>
    rw [List.mapM_cons, List.mapM_cons]
    obtain ⟨e, h, h'⟩ | ⟨css, css', h, h', halike⟩ := alike_layoutRule hperm rule
    · rw [h, h']
      exact .inl ⟨e, rfl, rfl⟩
    · rw [h, h']
      obtain ⟨e, hrest, hrest'⟩ | ⟨rest, rest', hrest, hrest', halikes⟩ := ih
      · rw [hrest, hrest']
        exact .inl ⟨e, rfl, rfl⟩
      · rw [hrest, hrest']
        exact .inr ⟨css :: rest, css' :: rest', rfl, rfl, halike.append halikes⟩

end Rules

end Stylesheet
