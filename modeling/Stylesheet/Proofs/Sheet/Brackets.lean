import Stylesheet.Proofs.Sheet.Statements

/-!
# Brackets in sheets

A sheet is read in fragments, and every function that reads takes the fragments of a language of its
own. So the brackets of a sheet that can be read are matched, but for those inside of tokens and
imports.

* `Reading.reaches_atRule`, `Reading.reaches_styleRule`: what rules pass.
* `Reading.ensures_itemsFrom`: what blocks pass.
* `brackets_of_read`: the fragments of every sheet that can be read.
-/

namespace Stylesheet

namespace Reading

/-! ## Items -/

section Items

variable {source : List Char} (hsource : Bare source) {L : Language Fragment} {mode : LexicalMode}
include hsource

theorem reaches_declaration (position : Position) :
    Reaches source (L * blocks) .block (declaration position) (fun _ => L * blocks) .block := by
  refine Reaches.bind keeps_room fun n => ?_
  refine (continues_propertyName hsource "" n).begin.bind fun name => ?_
  refine reaches_setMode.bind fun _ => (continues_valueList hsource).begin.bind fun value => ?_
  split
  · exact Ensures.bind keeps_here fun _ => ensures_fail _ _
  · refine (reaches_endStatement hsource .declaration).bind fun _ => .pure ?_
    refine statement_absorbed (blocks_absorb (blocks_absorb le_rfl ?_) ?_) (by decide)
    · exact textual_le_blocks (by decide)
    · exact textual_le_blocks (by decide)

theorem reaches_assignment :
    Reaches source (L * blocks) .block assignment (fun _ => L * blocks) .block := by
  refine (continues_expect hsource rfl .assignment).begin.bind fun t => ?_
  refine reaches_setMode.bind fun _ => ?_
  refine (continues_expect hsource rfl .assignment).begin.bind fun _ => ?_
  refine Reaches.bind (continues_valueList hsource _) fun value => ?_
  refine (reaches_endStatement hsource .assignment).bind fun _ => .pure ?_
  refine statement_absorbed (blocks_absorb (blocks_absorb le_rfl ?_) ?_) (by decide)
  · exact textual_le_blocks (by decide)
  · exact textual_le_blocks (by decide)

theorem reaches_inclusion (position : Position) :
    Reaches source (L * blocks * sign * textual .value) mode (inclusion position)
      (fun _ => L * blocks) .block := by
  refine reaches_setMode.bind fun _ => ?_
  refine Reaches.bind (continues_expect hsource rfl .inclusion _) fun name => ?_
  have hend (args : Option Value) : Reaches source (L * blocks * sign * textual .value) .value (do
      endStatement .inclusion
      return Node.inclusion { name := name.text, args, position }) (fun _ => L * blocks) .block := by
    refine (reaches_endStatement hsource .inclusion).bind fun _ => .pure ?_
    refine statement_absorbed ?_ (by decide)
    rw [mul_assoc]
    exact blocks_absorb le_rfl (sign_mul_textual_le.trans (textual_le_blocks (by decide)))
  refine Ensures.bind (ensures_peekKind_text hsource) fun kind => ?_
  split
  next hkind =>
    subst hkind
    exact Ensures.bind (ensures_arguments hsource) hend
  next => exact Ensures.bind (Continues.pure _).of_follows hend

theorem ensures_nameFollows (kind : TokenKind) (name : String) :
    Ensures (Reader.Reached source L mode) (nameFollows kind name) fun follows r =>
      r.Reached source (L * flat mode) mode ∧
        (follows = true → r.ahead.map Token.kind = some kind) := by
  refine (ensures_peek_reached hsource).bind fun t r follows r' hr h => ?_
  cases h
  refine ⟨hr.1, fun hfollows => ?_⟩
  rw [hr.2.1]
  obtain ⟨t, rfl, ht⟩ := (Option.any_eq_true _ _).1 hfollows
  rw [Option.map_some, of_decide_eq_true ((Bool.and_eq_true _ _).mp ht).1]

/-- An at-keyword is a sign and a name, and all of it can be taken for text. -/
theorem ensures_atKeyword (reading : Construct) :
    Ensures (Reader.Reached source (L * blocks) .block) (expect .atKeyword reading) fun t r =>
      t.kind = .atKeyword ∧ r.Reached source (L * blocks * {t.text.toList.map .char}) .block ∧
        ∃ name, t.text.toList = '@' :: name ∧ ∀ c ∈ name, c ∉ structural := by
  refine (ensures_require hsource reading).bind fun t => ?_
  split
  next hkind =>
    intro r u r' hr h
    cases h
    refine ⟨hkind, hr.spelled.mono (mul_le_mul_left ?_ _), hr.fits.atKeyword hkind⟩
    exact blocks_absorb le_rfl (flat_le_textual.trans (textual_le_blocks (by decide)))
  next => exact ensures_unexpected reading t

theorem reaches_atKeyword (reading : Construct) :
    Reaches source (L * blocks) .block (expect .atKeyword reading)
      (fun _ => L * blocks * sign * textual .value) .block := by
  intro r t r' hr h
  obtain ⟨-, hr', hname⟩ := ensures_atKeyword hsource reading hr h
  exact hr'.mono (chars_le_sign_mul hname)

theorem keeps_loose_skipStatement (n : Nat) :
    Keeps (Reader.Reached source (L * loose) .value) (skipStatement n) := by
  induction n with
  | zero => exact ensures_exhausted .importRule
  | succ n ih =>
    have hle : L * loose * flat .value ≤ L * loose := mul_le_of_le loose_mul_le flat_le_loose
    have hpeek : Ensures (Reader.Reached source (L * loose) .value) peekKind fun kind r =>
        r.Reached source (L * loose) .value ∧ r.ahead.map Token.kind = kind := by
      refine (ensures_peek_reached hsource).bind fun t r kind r' hr h => ?_
      cases h
      exact ⟨hr.1.mono hle, by rw [hr.2.1]⟩
    rw [skipStatement]
    refine hpeek.bind fun kind => ?_
    split
    next => exact (Keeps.pure ()).of_imp fun r hr => hr.1
    next => exact (Keeps.pure ()).of_imp fun r hr => hr.1
    next => exact (Keeps.pure ()).of_imp fun r hr => hr.1
    next kind hsemicolon hright =>
      refine Ensures.bind (ensures_skip hsource) fun _ => ih.of_imp fun r hr => hr.mono ?_
      refine (mul_le_mul_left hle _).trans (mul_le_of_le loose_mul_le (bracket_le_loose ?_))
      exact ⟨fun h => hsemicolon (by rw [h]), fun h => hright (by rw [h])⟩

theorem reaches_importRule {name : List Char} (hname : name.map Char.toLower = "import".toList) :
    Reaches source (L * blocks * {('@' :: name).map .char}) mode importRule
      (fun _ => L * blocks) .block := by
  have hfinish (url : String) : Reaches source (L * blocks * {('@' :: name).map .char} * loose)
      .value (importRule.finish url) (fun _ => L * blocks) .block := by
    refine Reaches.bind keeps_room fun n => ?_
    refine Reaches.bind (keeps_loose_skipStatement hsource n) fun _ => ?_
    refine (reaches_endStatement hsource .importRule).bind fun _ r a r' hr h => ?_
    cases h
    refine Reader.Reached.skipped hname (hr.mono (mul_le_mul_left ?_ _))
    exact mul_le_of_le loose_mul_le flat_le_loose
  refine reaches_setMode.bind fun _ => ?_
  refine (ensures_require hsource .importRule).bind fun t => ?_
  have htook (hkind : t.kind.brackets = []) (url : String) :
      Ensures (Reader.Took source (L * blocks * {('@' :: name).map .char}) .value t)
        (importRule.finish url) fun _ => Reader.Reached source (L * blocks) .block := by
    refine (hfinish url).of_imp fun r hr => hr.reached.mono ?_
    rw [bracket_eq_one hkind, mul_one]
    exact mul_le_mul_right flat_le_loose _
  split
  next hkind => exact htook (by rw [hkind]; rfl) _
  next hkind => exact htook (by rw [hkind]; rfl) _
  next => exact ensures_unexpected .importRule t

end Items

section Rules

variable {source : List Char} (hsource : Bare source) {body : Position → Reading (List Node)}
  (hbody : ∀ L mode start, Reaches source L mode (body start)
    (fun _ => L * blocks * bracket .rightBrace) .block)
  {L : Language Fragment} {mode : LexicalMode}
include hsource hbody

theorem reaches_mixin (start : Position) :
    Reaches source (L * blocks * sign * textual .value) mode (mixin body start)
      (fun _ => L * blocks) .block := by
  refine reaches_setMode.bind fun _ => ?_
  refine Reaches.bind (continues_expect hsource rfl .mixin _) fun name => ?_
  refine Reaches.bind (continues_parameters hsource _) fun params => ?_
  refine (reaches_expect hsource .leftBrace .mixin).bind fun _ => ?_
  exact (hbody _ _ start).bind fun nodes => .pure control_absorbed

theorem reaches_loop (start : Position) :
    Reaches source (L * blocks * sign * textual .value) mode (loop body start)
      (fun _ => L * blocks) .block := by
  refine reaches_setMode.bind fun _ => ?_
  refine Reaches.bind (continues_expect hsource rfl .forRule _) fun counter => ?_
  refine Reaches.bind (continues_expect hsource rfl .forRule _) fun keyword => ?_
  have hrest (first : Value) (keyword : Token) :
      Reaches source (L * blocks * sign * textual .value) .value (do
        let last ← condition
        let _ ← expect .leftBrace .forRule
        return Node.loop counter.name first last (keyword.text = "through") (← body start))
        (fun _ => L * blocks) .block := by
    refine (reaches_condition hsource).bind fun last => ?_
    refine (reaches_expect hsource .leftBrace .forRule).bind fun _ => ?_
    exact (hbody _ _ start).bind fun nodes => .pure control_absorbed
  have hfirst : Reaches source (L * blocks * sign * textual .value) .value (do
      let first ← condition
      let keyword ← expect .ident .forRule
      if keyword.text ≠ "through" ∧ keyword.text ≠ "to" then unexpected .forRule keyword
      let last ← condition
      let _ ← expect .leftBrace .forRule
      return Node.loop counter.name first last (keyword.text = "through") (← body start))
      (fun _ => L * blocks) .block := by
    refine (reaches_condition hsource).bind fun first => ?_
    refine Reaches.bind (continues_expect hsource rfl .forRule _) fun keyword => ?_
    dsimp only
    split
    · exact Ensures.bind (ensures_unexpected .forRule keyword) fun _ => hrest first keyword
    · exact hrest first keyword
  dsimp only
  split
  · exact Ensures.bind (ensures_unexpected .forRule keyword) fun _ => hfirst
  · exact hfirst

omit hsource in
theorem reaches_ruleBody (start : Position) :
    Reaches source (L * blocks * sign * textual .selector * bracket .leftBrace) mode (body start)
      (fun _ => L * blocks) .block := by
  refine (hbody _ _ start).mono le_rfl fun _ => ?_
  rw [mul_assoc (L * blocks)]
  refine le_trans ?_ rule_absorbed
  gcongr
  exact sign_mul_textual_le

theorem reaches_blockRule (start : Position) (head : String → Head) :
    Reaches source (L * blocks * sign * textual .selector) mode (blockRule body start head)
      (fun _ => L * blocks) .block := by
  refine Ensures.bind (ensures_prelude hsource true) fun result => ?_
  obtain ⟨text, hasBlock⟩ := result
  cases hasBlock with
  | true => exact (reaches_ruleBody hbody start).bind fun nodes => .pure le_rfl
  | false =>
    intro r a r' hr h
    obtain ⟨_, ⟨_, _, _, hnone, _⟩, _⟩ := hr.passed
    cases hnone

theorem reaches_otherRule (start : Position) (name : String) :
    Reaches source (L * blocks * sign * textual .selector) mode (otherRule body start name)
      (fun _ => L * blocks) .block := by
  refine Ensures.bind (ensures_prelude hsource false) fun result => ?_
  obtain ⟨text, hasBlock⟩ := result
  cases hasBlock with
  | true => exact (reaches_ruleBody hbody start).bind fun nodes => .pure le_rfl
  | false =>
    refine Reaches.pure (blocks_absorb ?_ stop_le_blocks)
    rw [mul_assoc]
    exact blocks_absorb le_rfl prelude_le_blocks

theorem reaches_branch (start : Position) (n : Nat) :
    Reaches source (L * blocks * sign * textual .value) mode (branch body start n)
      (fun _ => L * blocks) .block := by
  induction n generalizing start mode with
  | zero => exact ensures_exhausted .ifRule
  | succ n ih =>
    rw [branch]
    refine (reaches_condition hsource).bind fun test => ?_
    refine (reaches_expect hsource .leftBrace .ifRule).bind fun _ => ?_
    refine ((hbody _ _ start).mono le_rfl fun _ => control_absorbed).bind fun whenTrue => ?_
    refine Ensures.bind (ensures_nameFollows hsource .atKeyword "else") fun isElse => ?_
    have hle : L * blocks * flat .block ≤ L * blocks :=
      blocks_absorb le_rfl (flat_le_textual.trans (textual_le_blocks (by decide)))
    refine Ensures.of_imp ?_ fun r hr => hr.1.mono hle
    split
    · refine Reaches.bind (reaches_atKeyword hsource .elseRule) fun t => ?_
      refine reaches_setMode.bind fun _ => ?_
      refine Ensures.bind (ensures_nameFollows hsource .ident "if") fun isIf => ?_
      split
      next hif =>
        have hskip : Ensures (Follows source (L * blocks * sign) .value (some .ident)) skip
            fun _ => Reader.Reached source (L * blocks * sign * textual .value) .value :=
          ensures_skip_plain hsource rfl
        refine Ensures.bind (hskip.of_imp fun r hr => ⟨hr.1.mono textual_mul_flat_le, hr.2 hif⟩)
          fun _ => ?_
        exact Reaches.bind (ih t.position) fun node => .pure le_rfl
      next =>
        refine Ensures.of_imp ?_ fun r hr => hr.1.mono textual_mul_flat_le
        refine Reaches.bind (reaches_expect hsource .leftBrace .elseRule) fun _ => ?_
        exact (hbody _ _ t.position).bind fun nodes => .pure control_absorbed
    · exact Reaches.pure le_rfl

theorem reaches_atRule :
    Reaches source (L * blocks) .block (atRule body) (fun _ => L * blocks) .block := by
  refine Ensures.bind (ensures_atKeyword hsource .atRule) fun t => ?_
  have htext {p : Reading Node} {mode : LexicalMode}
      (hp : Reaches source (L * blocks * sign * textual mode) .block p (fun _ => L * blocks) .block) :
      Ensures (fun r => t.kind = .atKeyword ∧
        r.Reached source (L * blocks * {t.text.toList.map .char}) .block ∧
          ∃ name, t.text.toList = '@' :: name ∧ ∀ c ∈ name, c ∉ structural) p
        fun _ => Reader.Reached source (L * blocks) .block :=
    hp.of_imp fun r hr => hr.2.1.mono (chars_le_sign_mul hr.2.2)
  split
  next himport =>
    intro r node r' hr h
    obtain ⟨hkind, hr, name, hname, -⟩ := hr
    rw [hname] at hr
    refine reaches_importRule hsource ?_ hr h
    have hlower : (String.ofList name).map Char.toLower = "import" := by
      rw [← himport, Token.name, hkind]
      dsimp only
      rw [hname]
      rfl
    have hchars := congrArg String.toList hlower
    rwa [String.toList_map, String.toList_ofList] at hchars
  next => exact htext (reaches_blockRule hsource hbody t.position .media)
  next => exact htext (reaches_blockRule hsource hbody t.position _)
  next => exact htext (reaches_blockRule hsource hbody t.position .keyframes)
  next => exact htext (reaches_mixin hsource hbody t.position)
  next => exact htext (reaches_inclusion hsource t.position)
  next =>
    exact htext (Reaches.bind keeps_room fun n => reaches_branch hsource hbody t.position n)
  next => exact htext (reaches_loop hsource hbody t.position)
  next => exact ensures_fail _ _
  next => exact htext (reaches_otherRule hsource hbody t.position t.name)

theorem reaches_styleRule (depth : Nat) :
    Reaches source (L * blocks) mode (styleRule body depth) (fun _ => L * blocks) .block := by
  refine reaches_setMode.bind fun _ => Reaches.bind keeps_here fun start => ?_
  have hselector : Reaches source (L * blocks) .selector selector
      (fun _ => L * blocks * textual .selector * bracket .leftBrace) .selector :=
    (reaches_selector hsource).mono (le_mul_of_one_le one_le_textual) fun _ => le_rfl
  refine hselector.bind fun s => ?_
  exact (hbody _ _ start).bind fun nodes => .pure rule_absorbed

end Rules

/-! ## Sheets -/

section Sheets

variable {source : List Char} {L : Language Fragment}

mutual

theorem ensures_itemsFrom (hsource : Bare source) : (n depth : Nat) →
    (opening : Option Position) → (found : List Node) → (L : Language Fragment) →
    Ensures (Reader.Reached source (L * blocks) .block) (itemsFrom depth opening found n)
      fun _ r => match opening with
        | some _ => r.Reached source (L * blocks * bracket .rightBrace) .block
        | none => r.Reached source (L * blocks) .block ∧ r.remaining = []
  | 0, depth, opening, found, L => ensures_exhausted .block
  | n + 1, depth, opening, found, L => by
    rw [itemsFrom]
    have hle : L * blocks * flat .block ≤ L * blocks :=
      blocks_absorb le_rfl (flat_le_textual.trans (textual_le_blocks (by decide)))
    refine (ensures_peek_reached hsource).bind fun t => ?_
    cases t with
    | none =>
      cases opening with
      | none =>
        intro r a r' hr h
        cases h
        exact ⟨hr.1.mono hle, hr.2.2 rfl⟩
      | some start => exact ensures_fail _ _
    | some t =>
      have hskip : Ensures (fun r => r.Reached source (L * blocks * flat .block) .block ∧
          r.ahead = some t ∧ (some t = none → r.remaining = [])) skip
          fun _ => Reader.Reached source (L * blocks * bracket t.kind) .block := by
        intro r a r' hr h
        have hkind : r.ahead.map Token.kind = some t.kind := by rw [hr.2.1, Option.map_some]
        exact (ensures_skip hsource ⟨hr.1.mono hle, hkind⟩ h).mono (mul_le_mul_left hle _)
      dsimp only
      split
      next hkind =>
        refine Ensures.bind hskip fun _ => ?_
        rw [hkind]
        refine (ensures_itemsFrom hsource n depth _ found L).of_imp fun r hr => hr.mono ?_
        exact blocks_absorb le_rfl semicolon_le_blocks
      next => exact ensures_unexpected .stylesheet t
      next hkind =>
        refine Ensures.bind hskip fun _ => ?_
        rw [hkind]
        exact Reaches.pure le_rfl
      next hkind =>
        refine Ensures.bind hskip fun _ => .of_plain (by rw [hkind]; rfl) ?_
        exact ensures_itemsFrom hsource n depth _ _ L
      next hkind =>
        refine Ensures.bind hskip fun _ => .of_plain (by rw [hkind]; rfl) ?_
        exact ensures_itemsFrom hsource n depth _ found L
      next =>
        refine Ensures.of_imp ?_ fun r hr => hr.1.mono hle
        refine Ensures.bind (reaches_itemFrom hsource n depth _ t L) fun node => ?_
        exact ensures_itemsFrom hsource n depth _ (node :: found) L

theorem reaches_itemFrom (hsource : Bare source) : (n depth : Nat) → (topLevel : Bool) →
    (t : Token) → (L : Language Fragment) →
    Reaches source (L * blocks) .block (itemFrom depth topLevel t n) (fun _ => L * blocks) .block
  | 0, depth, topLevel, t, L => ensures_exhausted .block
  | n + 1, depth, topLevel, t, L => by
    rw [itemFrom]
    have hbody (depth : Nat) (L : Language Fragment) (mode : LexicalMode) (start : Position) :
        Reaches source L mode (do
          setMode .block
          itemsFrom depth (some start) [] n)
          (fun _ => L * blocks * bracket .rightBrace) .block :=
      reaches_setMode.bind fun _ =>
        (ensures_itemsFrom hsource n depth (some start) [] L).of_imp fun r hr =>
          hr.mono (le_mul_of_one_le one_le_blocks)
    dsimp only
    split
    · exact reaches_atRule hsource (hbody depth)
    · exact reaches_assignment hsource
    · split
      · exact reaches_styleRule hsource (hbody (depth + 1)) (depth + 1)
      · split
        · exact ensures_fail _ _
        · exact reaches_declaration hsource t.position
      · split
        · exact reaches_styleRule hsource (hbody (depth + 1)) (depth + 1)
        · exact reaches_declaration hsource t.position

end

end Sheets

end Reading

theorem reached_ofSource (source : String) :
    (Reader.ofSource source).Reached source.toList 1 .block :=
  ⟨rfl, ⟨[], rfl, rfl⟩, fun t ht => by cases ht⟩

/-- If a text without strings, escapes and comments is read, then its brackets match up to the texts
that are taken whole; and if those are nested in themselves, everything is. -/
theorem brackets_of_read {source : String} {sheet : Sheet} (hsource : Bare source.toList)
    (h : Sheet.read source = .ok sheet) :
    ∃ fs, Blocks fs ∧ source.toList = spell fs ∧
      ((∀ text, .whole text ∈ fs → isNested text = true) → isNested source.toList = true) := by
  unfold Sheet.read at h
  dsimp only at h
  split at h
  next nodes r hread =>
    have hstart := (reached_ofSource source).mono (le_mul_of_one_le one_le_blocks)
    obtain ⟨hr, hend⟩ := Reading.ensures_itemsFrom hsource _ 0 none [] 1 hstart hread
    obtain ⟨fs, hfs, hspell⟩ := hr.passed
    rw [one_mul] at hfs
    rw [hend, List.append_nil] at hspell
    refine ⟨fs, hfs, hspell, fun hwhole => ?_⟩
    rw [hspell]
    exact Blocks.isNested_spell hfs hwhole
  next => cases h

/-- An import, brackets in a selector, a url, a call and an interpolation. -/
def mixedBrackets : String := "@import url(a);b[c]\x7bd:url(e) f(#\x7bg\x7d)\x7d"

theorem brackets_of_read_mixed :
    ∃ sheet, Bare mixedBrackets.toList ∧ Sheet.read mixedBrackets = .ok sheet ∧
      ∃ fs, Blocks fs ∧ mixedBrackets.toList = spell fs ∧
        ((∀ text, .whole text ∈ fs → isNested text = true) →
          isNested mixedBrackets.toList = true) := by
  have hbare : Bare mixedBrackets.toList := by decide +kernel
  have hok : (Sheet.read mixedBrackets).isOk = true := by decide +kernel
  cases hread : Sheet.read mixedBrackets with
  | error e =>
    rw [hread] at hok
    cases hok
  | ok sheet => exact ⟨sheet, hbare, rfl, brackets_of_read hbare hread⟩

/-- Unmatched brackets are read in a value, a selector, a prelude, an import and a block. -/
theorem reads_unmatched :
    ["a\x7bx:]\x7d", "a\x7bx:[(]\x7d", "a\x7bx:url([)\x7d", "a[(]\x7b\x7d", "a(\x7b)\x7b\x7d",
      "@media ([)\x7b\x7d", "@import url(a)(;", "b\x7b@import url(x)#\x7ba\x7d"].map
      (fun source => ((Sheet.read source).isOk, decide (Bare source.toList),
        isNested source.toList)) = List.replicate 8 (true, true, false) := by
  decide +kernel

end Stylesheet
