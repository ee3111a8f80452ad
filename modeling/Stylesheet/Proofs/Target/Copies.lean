import Stylesheet.Proofs.Css.Declarations

/-!
# Copies for vendors

Which copies of a declaration are written is told by the targets alone: a vendor gets one as soon as
one of its browsers needs it, and the vendors stand in the order of the first such browsers. A block
is written on one line by a test of its own, which has to agree with the copies.

* `PropertyInfo.needs`: whether a target needs a copy.
* `PropertyInfo.Serves`: the vendors that copies are needed for, in order.
* `PropertyInfo.serves_vendorsFrom`: those that are found from left to right.
* `Value.keywords_marked`: what a mark does to the keywords of a value.
* `layoutBlockBy_ok`: how a block is written.
* `patches_serve_targets`: the copies and the blocks.
-/

namespace Stylesheet

namespace PropertyInfo

variable (info : PropertyInfo)

/-! ## Vendors -/

/-- Whether a target needs a copy. No target needs one of a property without any versions, not even
if its own version is below zero. -/
def needs (b : Browser) : Bool := info.hasPatches && info.hasPatch b

/-- The place of the first target of a vendor that needs a copy. -/
def firstNeed (targets : List Browser) (v : Vendor) : Nat :=
  targets.findIdx fun b => b.vendor = v && info.needs b

/-- The vendors that need a copy, each one once, in the order of the targets that need it. -/
structure Serves (targets : List Browser) (vendors : List Vendor) : Prop where
  nodup : vendors.Nodup
  mem_iff (v : Vendor) : v ∈ vendors ↔ ∃ b ∈ targets, b.vendor = v ∧ info.needs b = true
  ordered : vendors.Pairwise fun v w => info.firstNeed targets v < info.firstNeed targets w

variable {info} {done : List Vendor} {v : Vendor}

theorem mem_vendorsFrom (targets : List Browser) : v ∈ info.vendorsFrom done targets ↔
    v ∉ done ∧ ∃ b ∈ targets, b.vendor = v ∧ info.hasPatch b = true := by
  fun_induction vendorsFrom info done targets with
  | case1 => simp
  | case2 done b bs hskip ih =>
    have hb : v ∉ done → ¬ (b.vendor = v ∧ info.hasPatch b = true) := by
      rintro hv ⟨rfl, hpatch⟩
      rcases hskip with hdone | hnone
      · exact hv hdone
      · rw [hnone] at hpatch
        cases hpatch
    rw [ih, List.exists_mem_cons_iff]
    exact and_congr_right fun hv => (or_iff_right (hb hv)).symm
  | case3 done b bs htake ih =>
    obtain ⟨hdone, hpatch⟩ := not_or.1 htake
    rw [List.mem_cons, ih, List.mem_cons, not_or, List.exists_mem_cons_iff]
    constructor
    · rintro (rfl | ⟨⟨-, hv⟩, hexists⟩)
      · exact ⟨hdone, .inl ⟨rfl, eq_true_of_ne_false hpatch⟩⟩
      · exact ⟨hv, .inr hexists⟩
    · rintro ⟨hv, hexists⟩
      by_cases hfirst : v = b.vendor
      · exact .inl hfirst
      · exact .inr ⟨⟨hfirst, hv⟩, hexists.resolve_left fun h => hfirst h.1.symm⟩

theorem nodup_vendorsFrom (targets : List Browser) : (info.vendorsFrom done targets).Nodup := by
  fun_induction vendorsFrom info done targets with
  | case1 => exact List.nodup_nil
  | case2 done b bs hskip ih => exact ih
  | case3 done b bs htake ih =>
    refine List.nodup_cons.2 ⟨fun hmem => ?_, ih⟩
    exact ((mem_vendorsFrom bs).1 hmem).1 List.mem_cons_self

/-- A target that is passed over is not the first one of any vendor that is still to come. -/
theorem firstNeed_cons {b : Browser} (hb : b.vendor = v → info.needs b = false)
    (targets : List Browser) :
    info.firstNeed (b :: targets) v = info.firstNeed targets v + 1 := by
  have hnot : (decide (b.vendor = v) && info.needs b) = false := by
    by_cases hv : b.vendor = v
    · rw [hb hv, Bool.and_false]
    · simp [hv]
  rw [firstNeed, List.findIdx_cons, hnot]
  rfl

theorem ordered_vendorsFrom (hinfo : info.hasPatches = true) (targets : List Browser) :
    (info.vendorsFrom done targets).Pairwise fun v w =>
      info.firstNeed targets v < info.firstNeed targets w := by
  have hneeds (b : Browser) : info.needs b = info.hasPatch b := by
    rw [needs, hinfo, Bool.true_and]
  fun_induction vendorsFrom info done targets with
  | case1 => exact .nil
  | case2 done b bs hskip ih =>
    have hlater {v : Vendor} (hv : v ∈ info.vendorsFrom done bs) :
        info.firstNeed (b :: bs) v = info.firstNeed bs v + 1 := by
      refine firstNeed_cons (fun hb => ?_) bs
      rw [hneeds]
      exact hskip.resolve_left fun hdone => ((mem_vendorsFrom bs).1 hv).1 (hb ▸ hdone)
    refine ih.imp_of_mem fun hv hw hlt => ?_
    rw [hlater hv, hlater hw]
    omega
  | case3 done b bs htake ih =>
    obtain ⟨-, hpatch⟩ := not_or.1 htake
    have hlater {v : Vendor} (hv : v ∈ info.vendorsFrom (b.vendor :: done) bs) :
        info.firstNeed (b :: bs) v = info.firstNeed bs v + 1 := by
      refine firstNeed_cons (fun hb => ?_) bs
      exact absurd (hb ▸ List.mem_cons_self) ((mem_vendorsFrom bs).1 hv).1
    have hfirst : info.firstNeed (b :: bs) b.vendor = 0 := by
      rw [firstNeed, List.findIdx_cons, hneeds, eq_true_of_ne_false hpatch]
      simp
    refine List.pairwise_cons.2 ⟨fun w hw => ?_, ih.imp_of_mem fun hv hw hlt => ?_⟩
    · rw [hfirst, hlater hw]
      exact Nat.succ_pos _
    · rw [hlater hv, hlater hw]
      omega

theorem serves_vendorsFrom (hinfo : info.hasPatches = true) (targets : List Browser) :
    info.Serves targets (info.vendorsFrom [] targets) where
  nodup := nodup_vendorsFrom targets
  mem_iff v := by simp [mem_vendorsFrom, needs, hinfo]
  ordered := ordered_vendorsFrom hinfo targets

theorem serves_nil (hinfo : info.hasPatches = false) (targets : List Browser) :
    info.Serves targets [] where
  nodup := List.nodup_nil
  mem_iff v := by simp [needs, hinfo]
  ordered := .nil

end PropertyInfo

/-! ## Marked values -/

namespace Value

mutual

/-- The texts in a value that a mark may go before: the literals, also those within lists. -/
def keywords : Value → List String
  | .literal text => [text]
  | .list items _ => allKeywords items
  | _ => []

def allKeywords : List Value → List String
  | [] => []
  | v :: vs => keywords v ++ allKeywords vs

end

variable (vendor : Vendor)

mutual

/-- The keyword `transform` gets the mark wherever it stands in the value. -/
theorem keywords_marked : ∀ v : Value, (v.marked vendor).keywords =
    v.keywords.map fun text => if text = "transform" then vendor.mark ++ text else text
  | .literal _ => rfl
  | .list items _ => allKeywords_marked items
  | .quantity _ | .boolean _ | .undefined _ | .reference _ | .call .. | .binary .. | .joined _ => rfl

theorem allKeywords_marked : ∀ vs : List Value, allKeywords (allMarked vendor vs) =
    (allKeywords vs).map fun text => if text = "transform" then vendor.mark ++ text else text
  | [] => rfl
  | v :: vs => by
    rw [allMarked, allKeywords, allKeywords, List.map_append, keywords_marked v,
      allKeywords_marked vs]

end

mutual

/-- No other value is changed. -/
theorem marked_of_notMem : ∀ {v : Value}, "transform" ∉ v.keywords → v.marked vendor = v
  | .literal text, h => by
    have hne : text ≠ "transform" := fun heq => h (heq ▸ List.mem_singleton_self text)
    rw [marked, if_neg hne]
  | .list items _, h => by rw [marked, allMarked_of_notMem h]
  | .quantity _, _ | .boolean _, _ | .undefined _, _ | .reference _, _ | .call .., _ |
    .binary .., _ | .joined _, _ => rfl

theorem allMarked_of_notMem : ∀ {vs : List Value},
    "transform" ∉ allKeywords vs → allMarked vendor vs = vs
  | [], _ => rfl
  | v :: vs, h => by
    rw [allKeywords, List.mem_append, not_or] at h
    rw [allMarked, marked_of_notMem h.1, allMarked_of_notMem h.2]

end

end Value

namespace PropertyInfo

/-! ## Copies -/

variable (info : PropertyInfo)

/-- A copy of a declaration for a vendor, by its name and its value. -/
structure IsCopy (d : Declaration) (v : Vendor) (p : Patch) : Prop where
  name_eq : p.name = v.mark ++ d.name
  value_of_name : info.patcher = .name → p.value = d.value
  value_of_both : info.patcher = .nameAndValue → p.value = d.value.marked v
  keywords_of_both : info.patcher = .nameAndValue → p.value.keywords =
    d.value.keywords.map fun text => if text = "transform" then v.mark ++ text else text
  value_of_notMem : "transform" ∉ d.value.keywords → p.value = d.value

theorem isCopy_patch (d : Declaration) (v : Vendor) : info.IsCopy d v (info.patch d v) where
  name_eq := rfl
  value_of_name h := by simp [patch, h]
  value_of_both h := by simp [patch, h]
  keywords_of_both h := by simp [patch, h, Value.keywords_marked]
  value_of_notMem h := by
    cases hpatcher : info.patcher with
    | name => simp [patch, hpatcher]
    | nameAndValue => simp [patch, hpatcher, Value.marked_of_notMem v h]

theorem exists_serves (d : Declaration) (targets : List Browser) :
    ∃ vendors, info.Serves targets vendors ∧
      info.patches d targets = vendors.map (info.patch d) := by
  unfold patches
  split
  next hinfo => exact ⟨_, serves_vendorsFrom hinfo targets, rfl⟩
  next hinfo => exact ⟨[], serves_nil (Bool.eq_false_iff.2 hinfo) targets, rfl⟩

theorem mark_append_injective (name : String) :
    Function.Injective fun v : Vendor => v.mark ++ name := by
  intro v w h
  have hmark : v.mark = w.mark := (String.append_left_inj name).1 h
  revert hmark
  cases v <;> cases w <;> decide

theorem nodup_patches (d : Declaration) (targets : List Browser) :
    ((info.patches d targets).map Patch.name).Nodup := by
  obtain ⟨vendors, hserves, hpatches⟩ := info.exists_serves d targets
  rw [hpatches, List.map_map]
  exact hserves.nodup.map (mark_append_injective d.name)

theorem needsExpansion_iff (d : Declaration) (targets : List Browser) :
    info.needsExpansion targets = true ↔ info.patches d targets ≠ [] := by
  obtain ⟨vendors, hserves, hpatches⟩ := info.exists_serves d targets
  have hneeds : info.needsExpansion targets = true ↔ ∃ b ∈ targets, info.needs b = true := by
    rw [needsExpansion, Bool.and_eq_true, List.any_eq_true]
    simp only [needs, Bool.and_eq_true]
    exact ⟨fun ⟨hinfo, b, hb, hpatch⟩ => ⟨b, hb, hinfo, hpatch⟩,
      fun ⟨b, hb, hinfo, hpatch⟩ => ⟨hinfo, b, hb, hpatch⟩⟩
  rw [hneeds, hpatches, Ne, List.map_eq_nil_iff]
  constructor
  · rintro ⟨b, hb, hneed⟩
    exact List.ne_nil_of_mem ((hserves.mem_iff b.vendor).2 ⟨b, hb, rfl, hneed⟩)
  · intro hne
    obtain ⟨v, hv⟩ := List.exists_mem_of_ne_nil vendors hne
    obtain ⟨b, hb, -, hneed⟩ := (hserves.mem_iff v).1 hv
    exact ⟨b, hb, hneed⟩

theorem patches_of_threshold_zero (h : ∀ kind, (info.support.threshold kind == 0) = true)
    (d : Declaration) (targets : List Browser) : info.patches d targets = [] := by
  have hnone : info.hasPatches = false := by simp [hasPatches, bne, h]
  rw [patches, hnone]
  rfl

end PropertyInfo

/-! ## Blocks -/

section Blocks

variable {context : Context} {header : List String} {items : List Node} {css : Css}
  {targets targets' : List Browser} {n : Nat}

theorem needsCopies_iff (d : Declaration) :
    needsCopies context d targets = true ↔ copies context d targets ≠ [] := by
  unfold needsCopies copies
  cases context.properties.get? d.name with
  | none => simp
  | some info => exact info.needsExpansion_iff d targets

/-- A block is condensed if it holds one declaration, which writes one name and value. -/
theorem isCondensed_iff : isCondensed context items targets = true ↔
    ∃ d, items = [.declaration d] ∧ (layoutDeclaration context d targets).length = 1 := by
  have hlength (d : Declaration) : (layoutDeclaration context d targets).length = 1 ↔
      needsCopies context d targets = false := by
    rw [← Bool.not_eq_true, needsCopies_iff, not_not]
    simp [layoutDeclaration]
  unfold isCondensed
  split
  next d => simp [hlength]
  next hnot =>
    constructor
    · intro h
      cases h
    · rintro ⟨d, rfl, -⟩
      exact (hnot d rfl).elim

theorem layoutBlockBy_ok {layout : Node → Layout (List Css)}
    (h : layoutBlockBy context layout header items targets = .ok (css, targets')) :
    ∃ body, items.mapM layout targets = .ok (body, targets') ∧
      css = .block header (isCondensed context items targets) body.flatten := by
  obtain ⟨seen, mid, hget, h⟩ := Layout.ok_of_bind h
  cases hget
  obtain ⟨body, left, hbody, h⟩ := Layout.ok_of_bind h
  cases h
  exact ⟨body, hbody, rfl⟩

theorem layoutBlockBy_declaration (d : Declaration) :
    layoutBlockBy context (layoutIn context (n + 1)) header [.declaration d] targets =
      .ok (.block header (isCondensed context [.declaration d] targets)
        (layoutDeclaration context d targets), targets) := by
  show Except.ok (Css.block header _ [layoutDeclaration context d targets].flatten, targets) = _
  rw [List.flatten_singleton]

/-- The head of a block as it is written at a level. -/
def Css.heading (level : Nat) (header : List String) : String :=
  indent level ++ (",\n" ++ indent level).intercalate header

/-- A block is open towards the end of the line exactly if it is not condensed. -/
theorem Css.render_block_iff (level : Nat) (header : List String) (condensed : Bool)
    (body : List Css) :
    (∃ text, (Css.block header condensed body).render level =
      heading level header ++ " \x7b " ++ text) ↔ condensed = true := by
  cases condensed with
  | true =>
    refine iff_of_true ⟨String.join (renderEach 0 body) ++ " \x7d", ?_⟩ rfl
    simp [render, heading, String.append_assoc]
  | false =>
    refine iff_of_false ?_ Bool.false_ne_true
    rintro ⟨text, htext⟩
    simp only [render, heading, String.append_assoc, String.append_right_inj] at htext
    have hthird := congrArg (·.toList[2]?) htext
    simp [String.toList_append] at hthird

end Blocks

/-- Copies are written for exactly the vendors with a target that needs one, in the order of the
first such targets, and blocks are laid out as fits them. -/
theorem patches_serve_targets (info : PropertyInfo) (d : Declaration) (targets : List Browser) :
    (∃ vendors, info.Serves targets vendors ∧
      List.Forall₂ (info.IsCopy d) vendors (info.patches d targets)) ∧
    ((∀ kind, (info.support.threshold kind == 0) = true) → info.patches d targets = []) ∧
    ((info.patches d targets).map Patch.name).Nodup ∧
    (info.needsExpansion targets = true ↔ info.patches d targets ≠ []) ∧
    ∀ (context : Context) (n : Nat) (header : List String),
      (∃ css, layoutBlockBy context (layoutIn context (n + 1)) header [.declaration d] targets =
        .ok (css, targets)) ∧
      ∀ (items : List Node) (css : Css) (left : List Browser),
        layoutBlockBy context (layoutIn context (n + 1)) header items targets = .ok (css, left) →
        ∀ level, (∃ text, css.render level = Css.heading level header ++ " \x7b " ++ text) ↔
          ∃ d, items = [.declaration d] ∧ (layoutDeclaration context d targets).length = 1 := by
  refine ⟨?_, fun h => info.patches_of_threshold_zero h d targets,
    info.nodup_patches d targets, info.needsExpansion_iff d targets,
    fun context n header => ⟨⟨_, layoutBlockBy_declaration d⟩, fun items css left h level => ?_⟩⟩
  · obtain ⟨vendors, hserves, hpatches⟩ := info.exists_serves d targets
    refine ⟨vendors, hserves, ?_⟩
    rw [hpatches, List.forall₂_map_right_iff]
    exact List.forall₂_same.2 fun v _ => info.isCopy_patch d v
  · obtain ⟨body, -, rfl⟩ := layoutBlockBy_ok h
    rw [Css.render_block_iff, isCondensed_iff]

/-- Needs copies for Chrome below 36, Firefox below 16 and Safari below 9. -/
def waningInfo : PropertyInfo where
  support :=
    ⟨Float32.ofBits 0x42100000, 0, Float32.ofBits 0x41800000, 0, 0, Float32.ofBits 0x41100000⟩
  patcher := .name

/-- Chrome 40, which needs no copy of its own, Safari 8, Firefox 15 and Chrome 30. -/
def mixedTargets : List Browser :=
  [⟨.chrome, Float32.ofBits 0x42200000⟩, ⟨.safari, Float32.ofBits 0x41000000⟩,
    ⟨.firefox, Float32.ofBits 0x41700000⟩, ⟨.chrome, Float32.ofBits 0x41f00000⟩]

def upright : Declaration := ⟨"transform", .literal "none", .start⟩

/-- A context in which only `transform` needs copies. -/
def waningContext : Context := { properties := Table.empty.insert "transform" waningInfo }

theorem copies_upright_length :
    (layoutDeclaration waningContext upright mixedTargets).length = 3 := by
  have hinfo : waningContext.properties.get? upright.name = some waningInfo :=
    Table.get?_insert_self _ _ _
  have hpatches : (waningInfo.patches upright mixedTargets).length = 2 := by decide +kernel
  simp [layoutDeclaration, copies, hinfo, hpatches]

theorem patches_of_mixed_targets :
    (waningInfo.patches upright mixedTargets).map Patch.name =
      ["-webkit-transform", "-moz-transform"] ∧
    ((waningInfo.patches upright mixedTargets).map Patch.name).Nodup ∧
    (PropertyInfo.mk {} .name).patches upright mixedTargets = [] ∧
    ∃ css, layoutBlockBy waningContext (layoutIn waningContext 1) ["p"] [.declaration upright]
        mixedTargets = .ok (css, mixedTargets) ∧
      ¬ ∃ text, css.render 0 = Css.heading 0 ["p"] ++ " \x7b " ++ text := by
  obtain ⟨-, -, hnodup, -, hblocks⟩ := patches_serve_targets waningInfo upright mixedTargets
  obtain ⟨⟨css, hcss⟩, hlines⟩ := hblocks waningContext 0 ["p"]
  refine ⟨by decide +kernel, hnodup, ?_, css, hcss, ?_⟩
  · exact (patches_serve_targets ⟨{}, .name⟩ upright mixedTargets).2.1 fun kind => by
      cases kind <;> decide +kernel
  · rw [hlines _ css _ hcss 0]
    rintro ⟨d, hd, hlength⟩
    cases hd
    rw [copies_upright_length] at hlength
    omega

end Stylesheet
