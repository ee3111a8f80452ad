import Stylesheet.Proofs.Target.Reordering

/-!
# Marked keyframes

Keyframes are written once more for old browsers, whichever rules they stand in: in style rules, in
media rules, in other at-rules or in keyframes. Whether they are is told by the first Firefox and the
first Safari among the targets.

* `FirstBelow`, `OneVersion`: what keyframes are marked by, and when the order does not matter.
* `Node.Inside`, `Css.Within`: rules inside of rules, and what is written for them.
* `laidOutWithin_layoutRule`: what stands inside of a rule is laid out in its place.
* `IsKeyframesGroup`, `isKeyframesGroup_layoutIn`: what keyframes are laid out as.
-/

namespace Stylesheet

/-! ## Targets -/

section Targets

variable {targets targets' : List Browser} {kind : BrowserKind} {version : Float32}

/-- The first target of a kind has a version strictly between zero and the given one. -/
def FirstBelow (targets : List Browser) (kind : BrowserKind) (version : Float32) : Prop :=
  ∃ b, targets.find? (·.kind = kind) = some b ∧ 0 < b.version ∧ b.version < version

/-- Some target of a kind has such a version. -/
def SomeBelow (targets : List Browser) (kind : BrowserKind) (version : Float32) : Prop :=
  ∃ b ∈ targets, b.kind = kind ∧ 0 < b.version ∧ b.version < version

/-- All targets of a kind have one version. -/
def OneVersion (targets : List Browser) (kind : BrowserKind) : Prop :=
  ∀ b ∈ targets, ∀ b' ∈ targets, b.kind = kind → b'.kind = kind → b.version = b'.version

theorem firstBelow_iff_targetVersion : FirstBelow targets kind version ↔
    0 < targetVersion targets kind ∧ targetVersion targets kind < version := by
  unfold FirstBelow targetVersion
  cases targets.find? (·.kind = kind) with
  | none =>
    refine iff_of_false ?_ ?_
    · rintro ⟨b, hb, -⟩
      cases hb
    · rintro ⟨hpos, -⟩
      exact absurd hpos (by decide)
  | some b =>
    constructor
    · rintro ⟨b, hb, h⟩
      cases hb
      exact h
    · exact fun h => ⟨b, rfl, h⟩

theorem mem_targetBelow {b : Browser} : b ∈ targetBelow targets kind version ↔
    FirstBelow targets kind version ∧ b = ⟨kind, targetVersion targets kind⟩ := by
  rw [firstBelow_iff_targetVersion, targetBelow]
  split
  next h => simp [h]
  next h => simp [h]

theorem OneVersion.targetVersion_eq (h : OneVersion targets kind) {b : Browser} (hb : b ∈ targets)
    (hkind : b.kind = kind) : targetVersion targets kind = b.version := by
  unfold targetVersion
  cases hfind : targets.find? (·.kind = kind) with
  | none => exact absurd (by simpa using hkind) (List.find?_eq_none.1 hfind b hb)
  | some first =>
    have hfirst : first.kind = kind := by simpa using List.find?_some hfind
    exact h first (List.mem_of_find?_eq_some hfind) b hb hfirst hkind

theorem OneVersion.perm (h : OneVersion targets kind) (hperm : targets.Perm targets') :
    OneVersion targets' kind :=
  fun b hb b' hb' => h b (hperm.mem_iff.2 hb) b' (hperm.mem_iff.2 hb')

theorem OneVersion.targetVersion_perm (h : OneVersion targets kind) (hperm : targets.Perm targets') :
    targetVersion targets kind = targetVersion targets' kind := by
  cases hfind : targets.find? (·.kind = kind) with
  | none =>
    have hnone : targets'.find? (·.kind = kind) = none := by
      rw [List.find?_eq_none] at hfind ⊢
      exact fun b hb => hfind b (hperm.mem_iff.2 hb)
    unfold targetVersion
    rw [hfind, hnone]
  | some b =>
    have hb := List.mem_of_find?_eq_some hfind
    have hkind : b.kind = kind := by simpa using List.find?_some hfind
    rw [h.targetVersion_eq hb hkind, (h.perm hperm).targetVersion_eq (hperm.mem_iff.1 hb) hkind]

theorem OneVersion.firstBelow_iff (h : OneVersion targets kind) :
    FirstBelow targets kind version ↔ SomeBelow targets kind version := by
  constructor
  · rintro ⟨b, hfind, hversion⟩
    exact ⟨b, List.mem_of_find?_eq_some hfind, by simpa using List.find?_some hfind, hversion⟩
  · rintro ⟨b, hb, hkind, hversion⟩
    rwa [firstBelow_iff_targetVersion, h.targetVersion_eq hb hkind]

/-- The vendors that keyframes are marked for. -/
def keyframesVendors (targets : List Browser) : List Vendor :=
  (legacyTargets targets).map Browser.vendor

theorem mem_keyframesVendors (v : Vendor) : v ∈ keyframesVendors targets ↔
    v = .moz ∧ FirstBelow targets .firefox firefoxKeyframes ∨
    v = .webkit ∧ FirstBelow targets .safari safariKeyframes := by
  simp [keyframesVendors, legacyTargets, mem_targetBelow, Browser.vendor, BrowserKind.vendor,
    and_comm, eq_comm]

theorem targetBelow_sublist (targets : List Browser) (kind : BrowserKind) (version : Float32) :
    ((targetBelow targets kind version).map Browser.vendor).Sublist [kind.vendor] := by
  simp only [targetBelow]
  split
  · exact .refl _
  · exact List.nil_sublist _

theorem keyframesVendors_sublist (targets : List Browser) :
    (keyframesVendors targets).Sublist [.moz, .webkit] := by
  rw [keyframesVendors, legacyTargets, List.map_append]
  exact (targetBelow_sublist targets .firefox _).append (targetBelow_sublist targets .safari _)

end Targets

/-! ## Rules inside of rules -/

/-- The inner node is the other one, or stands inside of it at any depth. -/
inductive Node.Inside (inner : Node) : Node → Prop
  | self : Inside inner inner
  | block {head : Head} {body : List Node} {item : Node} :
      item ∈ body → Inside inner item → Inside inner (.block head body)

/-- The group stands in a list of trees, or inside of one of them at any depth. -/
inductive Css.Within (group : List Css) : List Css → Prop
  | here (before after : List Css) : Within group (before ++ group ++ after)
  | inside {header : List String} {condensed : Bool} {body : List Css} (before after : List Css) :
      Within group body → Within group (before ++ .block header condensed body :: after)

theorem Css.Within.append {group items : List Css} (h : Within group items)
    (before after : List Css) : Within group (before ++ items ++ after) := by
  cases h with
  | here first last =>
    have hhere := @Within.here group (before ++ first) (last ++ after)
    simpa only [List.append_assoc] using hhere
  | @inside header condensed body first last hbody =>
    have hinside := @Within.inside group header condensed body (before ++ first) (last ++ after) hbody
    simpa only [List.append_assoc, List.cons_append] using hinside

section Flatten

variable {inner : Node} (hinner : inner.isStyleRule = false)

include hinner

/-- What stands in a body is left in it, or becomes an item of a flat rule. -/
theorem inside_flattenNodes {chain : List Selector} {nodes : List Node} {flat : List FlatRule}
    (h : flattenNodes chain nodes = .ok flat) {node : Node} (hnode : node ∈ nodes)
    (hinside : inner.Inside node) :
    (∃ item ∈ ownItems nodes, inner.Inside item) ∨
      ∃ rule ∈ flat, ∃ item ∈ rule.items, inner.Inside item := by
  induction nodes using body_induction generalizing chain flat node with
  | nil => cases hnode
  | style s depth body ns ihbody ihns =>
    obtain ⟨selector, nested, rest, hbody, hns, rfl⟩ := flattenNodes_style_ok h
    rcases List.mem_cons.1 hnode with rfl | hnode
    · cases hinside with
      | self => cases hinner
      | block hitem hinside =>
        rcases ihbody hbody hitem hinside with hown | ⟨rule, hrule, hitems⟩
        · exact .inr ⟨⟨selector, depth, ownItems body⟩, by simp, hown⟩
        · exact .inr ⟨rule, by simp [hrule], hitems⟩
    · rcases ihns hns hnode hinside with hown | ⟨rule, hrule, hitems⟩
      · exact .inl hown
      · exact .inr ⟨rule, by simp [hrule], hitems⟩
  | other n ns hn ih =>
    have hown : ownItems (n :: ns) = n :: ownItems ns := by
      rw [ownItems, List.filter_cons_of_pos (by simp [hn])]
      rfl
    rw [flattenNodes_other chain hn] at h
    rw [hown]
    rcases List.mem_cons.1 hnode with rfl | hnode
    · exact .inl ⟨node, List.mem_cons_self, hinside⟩
    · refine (ih h hnode hinside).imp_left ?_
      rintro ⟨item, hitem, hinside⟩
      exact ⟨item, List.mem_cons_of_mem n hitem, hinside⟩

theorem inside_flattenRule {s : Selector} {depth : Nat} {body : List Node} {flat : List FlatRule}
    (h : flattenRule s depth body = .ok flat) {node : Node} (hnode : node ∈ body)
    (hinside : inner.Inside node) : ∃ rule ∈ flat, ∃ item ∈ rule.items, inner.Inside item := by
  obtain ⟨nested, hnested, rfl⟩ := flattenRule_ok h
  have hkept {rule : FlatRule} (hrule : rule ∈ ⟨s, depth, ownItems body⟩ :: nested)
      (hitems : ∃ item ∈ rule.items, inner.Inside item) :
      ∃ rule ∈ (⟨s, depth, ownItems body⟩ :: nested).filter fun rule => !rule.items.isEmpty,
        ∃ item ∈ rule.items, inner.Inside item := by
    refine ⟨rule, List.mem_filter.2 ⟨hrule, ?_⟩, hitems⟩
    obtain ⟨item, hitem, -⟩ := hitems
    simpa using List.ne_nil_of_mem hitem
  rcases inside_flattenNodes hinner hnested hnode hinside with hown | ⟨rule, hrule, hitems⟩
  · exact hkept List.mem_cons_self hown
  · exact hkept (List.mem_cons_of_mem _ hrule) hitems

end Flatten

/-! ## Layout -/

theorem Layout.ok_of_mapM {α ι : Type} {f : ι → Layout α} {items : List ι}
    {targets left : List Browser} {out : List α} (h : items.mapM f targets = .ok (out, left))
    {i : ι} (hi : i ∈ items) :
    ∃ a start stop before after, f i start = .ok (a, stop) ∧ out = before ++ a :: after := by
  induction items generalizing targets out with
  | nil => cases hi
  | cons j items ih =>
    rw [List.mapM_cons] at h
    obtain ⟨a, mid, ha, h⟩ := Layout.ok_of_bind h
    obtain ⟨as, mid', has, h⟩ := Layout.ok_of_bind h
    cases h
    rcases List.mem_cons.1 hi with rfl | hi
    · exact ⟨a, targets, mid, [], as, ha, rfl⟩
    · obtain ⟨b, start, stop, before, after, hb, rfl⟩ := ih has hi
      exact ⟨b, start, stop, a :: before, after, hb, rfl⟩

variable {context : Context} {inner : Node}

variable (context inner) in
/-- Among the trees is what the inner node is laid out as, for some targets. -/
def LaidOutWithin (css : List Css) : Prop :=
  ∃ n targets group left, inner.height ≤ n ∧ layoutIn context n inner targets = .ok (group, left) ∧
    Css.Within group css

theorem LaidOutWithin.append {items : List Css} (h : LaidOutWithin context inner items)
    (before after : List Css) : LaidOutWithin context inner (before ++ items ++ after) := by
  obtain ⟨n, targets, group, left, hheight, hgroup, hwithin⟩ := h
  exact ⟨n, targets, group, left, hheight, hgroup, hwithin.append before after⟩

theorem LaidOutWithin.block {body : List Css} (h : LaidOutWithin context inner body)
    (header : List String) (condensed : Bool) :
    LaidOutWithin context inner [.block header condensed body] := by
  obtain ⟨n, targets, group, left, hheight, hgroup, hwithin⟩ := h
  exact ⟨n, targets, group, left, hheight, hgroup, .inside [] [] hwithin⟩

theorem laidOutWithin_block {layout : Node → Layout (List Css)} {items : List Node} {item : Node}
    (hitem : item ∈ items) (h : ∀ {targets css left}, layout item targets = .ok (css, left) →
      LaidOutWithin context inner css)
    {header : List String} {targets left : List Browser} {css : Css}
    (hblock : layoutBlockBy context layout header items targets = .ok (css, left)) :
    LaidOutWithin context inner [css] := by
  obtain ⟨active, mid, -, hblock⟩ := Layout.ok_of_bind hblock
  obtain ⟨bodies, mid', hbodies, hblock⟩ := Layout.ok_of_bind hblock
  cases hblock
  obtain ⟨body, start, stop, before, after, hbody, rfl⟩ := Layout.ok_of_mapM hbodies hitem
  have hflatten : (before ++ body :: after).flatten = before.flatten ++ body ++ after.flatten := by
    simp
  rw [hflatten]
  exact ((h hbody).append _ _).block header _

/-- An item of a style rule may move to a rule of its own, and is laid out there. -/
theorem laidOutWithin_style {n : Nat} {s : Selector} {depth : Nat} {body : List Node} {item : Node}
    (hlayout : ∀ {node : Node}, node.height ≤ n → inner.Inside node →
      ∀ {targets left : List Browser} {css : List Css},
        layoutIn context n node targets = .ok (css, left) → LaidOutWithin context inner css)
    (hinner : inner.isStyleRule = false) (hheight : Node.heightAll body ≤ n) (hitem : item ∈ body)
    (hinside : inner.Inside item) {targets left : List Browser} {css : List Css}
    (h : layoutIn context (n + 1) (.block (.style s depth) body) targets = .ok (css, left)) :
    LaidOutWithin context inner css := by
  obtain ⟨flat, mid, hflat, h⟩ := Layout.ok_of_bind h
  cases hrules : flattenRule s depth body with
  | error e =>
    rw [hrules] at hflat
    cases hflat
  | ok rules =>
    rw [hrules] at hflat
    cases hflat
    obtain ⟨rule, hrule, item, hitem, hinside⟩ := inside_flattenRule hinner hrules hitem hinside
    have hlow := (height_le_of_mem_flattenRule hrules rule hrule item hitem).trans hheight
    obtain ⟨block, start, stop, before, after, hcss, rfl⟩ := Layout.ok_of_mapM h hrule
    have hwithin := laidOutWithin_block hitem (fun hitem => hlayout hlow hinside hitem) hcss
    simpa using hwithin.append before after

/-- What stands inside of a node is laid out in its place, style rules aside. -/
theorem laidOutWithin_layoutIn (hinner : inner.isStyleRule = false) {n : Nat} {node : Node}
    (hheight : node.height ≤ n) (hinside : inner.Inside node) {targets left : List Browser}
    {css : List Css} (h : layoutIn context n node targets = .ok (css, left)) :
    LaidOutWithin context inner css := by
  induction n generalizing node targets left css with
  | zero => cases node <;> simp [Node.height] at hheight
  | succ n ih =>
    cases hinside with
    | self =>
      have hhere := @Css.Within.here css [] []
      rw [List.nil_append, List.append_nil] at hhere
      exact ⟨n + 1, targets, css, left, hheight, h, hhere⟩
    | @block head body item hitem hinside =>
      rw [Node.height] at hheight
      have hbody : Node.heightAll body ≤ n := Nat.le_of_succ_le_succ hheight
      have hlow := (Node.height_le_heightAll hitem).trans hbody
      have hblock {header : List String} {targets left : List Browser} {css : Css}
          (hcss : layoutBlockBy context (layoutIn context n) header body targets = .ok (css, left)) :
          LaidOutWithin context inner [css] :=
        laidOutWithin_block hitem (fun hitem => ih hlow hinside hitem) hcss
      cases head with
      | style s depth => exact laidOutWithin_style ih hinner hbody hitem hinside h
      | media _ | fontFace | atRule _ _ =>
        obtain ⟨block, mid, hcss, h⟩ := Layout.ok_of_bind h
        cases h
        exact hblock hcss
      | keyframes name =>
        -- The rule itself is the last one, behind its copies.
        obtain ⟨copies, mid, -, h⟩ := Layout.ok_of_bind h
        obtain ⟨standard, mid', hstandard, h⟩ := Layout.ok_of_bind h
        cases h
        obtain ⟨_, mid, -, hstandard⟩ := Layout.ok_of_bind hstandard
        obtain ⟨block, mid', hcss, hstandard⟩ := Layout.ok_of_bind hstandard
        obtain ⟨_, mid, -, hstandard⟩ := Layout.ok_of_bind hstandard
        cases hstandard
        simpa using (hblock hcss).append copies []

theorem laidOutWithin_layoutRule (hinner : inner.isStyleRule = false) {rule : Node}
    {css : List Css} (h : layoutRule context rule = .ok css) (hinside : inner.Inside rule) :
    LaidOutWithin context inner css := by
  rw [layoutRule_eq] at h
  cases hrun : layoutIn context rule.height rule context.targets with
  | error e =>
    rw [hrun] at h
    cases h
  | ok result =>
    rw [hrun] at h
    cases h
    exact laidOutWithin_layoutIn hinner le_rfl hinside hrun

/-! ## Keyframes -/

/-- The lines that a rule begins with, and none for anything else. -/
def Css.header : Css → List String
  | .block header _ _ => header
  | _ => []

/-- Keyframes for some targets: marked for Mozilla exactly if the first Firefox is old, then for WebKit
exactly if the first Safari is, and last without a mark. -/
def IsKeyframesGroup (targets : List Browser) (name : String) (css : List Css) : Prop :=
  ∃ vendors : List Vendor, vendors.Sublist [.moz, .webkit] ∧
    (∀ v, v ∈ vendors ↔ v = .moz ∧ FirstBelow targets .firefox 16 ∨
      v = .webkit ∧ FirstBelow targets .safari 9) ∧
    css.map Css.header = vendors.map (fun v => ["@" ++ v.mark ++ "keyframes " ++ name]) ++
      [["@keyframes " ++ name]]

/-- Keyframes are laid out in this way on every level, whatever targets copies are written for. -/
theorem isKeyframesGroup_layoutIn {n : Nat} {name : String} {body : List Node} {css : List Css}
    {targets left : List Browser}
    (h : layoutIn context (n + 1) (.block (.keyframes name) body) targets = .ok (css, left)) :
    IsKeyframesGroup context.targets name css := by
  have hkeyframes : layoutKeyframesBy context (layoutIn context n) name body targets =
      .ok (css, left) := h
  have hbody := Layout.Alike.mapM (alike_layoutIn (List.Perm.refl context.targets) n) body
  obtain ⟨e, hfails, -⟩ | ⟨hgives, -⟩ := hbody.fails_or_succeeds
  · rw [layoutKeyframesBy_error hfails] at hkeyframes
    cases hkeyframes
  · choose bodies after hgives using hgives
    rw [layoutKeyframesBy_eq hgives] at hkeyframes
    cases hkeyframes
    refine ⟨keyframesVendors context.targets, keyframesVendors_sublist _, mem_keyframesVendors, ?_⟩
    simp [keyframesVendors, blockFor, Css.header, Function.comp_def]

/-- Keyframes that stand anywhere in a rule are written in this way in their place. -/
theorem exists_keyframesGroup {rule : Node} {css : List Css} {name : String} {body : List Node}
    (h : layoutRule context rule = .ok css)
    (hinside : Node.Inside (.block (.keyframes name) body) rule) :
    ∃ group, IsKeyframesGroup context.targets name group ∧ Css.Within group css := by
  obtain ⟨n, targets, group, left, hheight, hgroup, hwithin⟩ := laidOutWithin_layoutRule rfl h hinside
  rw [Node.height] at hheight
  obtain ⟨n, rfl⟩ := Nat.exists_eq_succ_of_ne_zero (Nat.ne_of_gt (Nat.lt_of_lt_of_le
    (Nat.succ_pos _) hheight))
  exact ⟨group, isKeyframesGroup_layoutIn hgroup, hwithin⟩

end Stylesheet
