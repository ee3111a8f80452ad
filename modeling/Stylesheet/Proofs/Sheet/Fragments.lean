import Mathlib.Computability.Language
import Mathlib.Order.CompletePartialOrder
import Stylesheet.Proofs.Token.Brackets

/-!
# Fragments of sheets

The fragments that a sheet is read in make up languages: the texts of values match parentheses and
interpolations, those of selectors interpolations only, and blocks match braces. Brackets inside of a
token are matched by nobody, and neither are those of an import.

* `Textual`, `Blocks`: the fragments of a text and those of a block.
* `Blocks.isNested_spell`: if the texts that are taken whole are nested, everything is.
* `textual`, `blocks`: the languages, with lemmas on what they absorb.
-/

namespace Stylesheet

/-! ## Fragments of texts and blocks -/

/-- The fragments of a text in a mode. Interpolations, and parentheses outside of selectors, hold
the text of a value. -/
inductive Textual : LexicalMode → List Fragment → Prop
  | nil (mode : LexicalMode) : Textual mode []
  | cons {mode : LexicalMode} {f : Fragment} {fs : List Fragment} (hf : f.Fits mode)
      (h : Textual mode fs) : Textual mode (f :: fs)
  | parens {mode : LexicalMode} {inner fs : List Fragment} (hmode : mode ≠ .selector)
      (hinner : Textual .value inner) (h : Textual mode fs) :
      Textual mode (.char '(' :: (inner ++ .char ')' :: fs))
  | hole {mode : LexicalMode} {inner fs : List Fragment} (hinner : Textual .value inner)
      (h : Textual mode fs) :
      Textual mode (.char '#' :: .char '\x7b' :: (inner ++ .char '\x7d' :: fs))

/-- A fragment of an import, whose brackets are not matched. -/
def Fragment.IsLoose : Fragment → Prop
  | char c => c ∉ [';', '\x7d', '[']
  | whole text => Unchecked .value text

/-- The fragments of a block or a sheet: statements, and rules with a selector, with a text after
the sign of an at-rule, or with none at all. -/
inductive Blocks : List Fragment → Prop
  | nil : Blocks []
  | text {mode : LexicalMode} {text rest : List Fragment} (hmode : mode ≠ .selector)
      (htext : Textual mode text) (h : Blocks rest) : Blocks (text ++ rest)
  | semicolon {rest : List Fragment} (h : Blocks rest) : Blocks (.char ';' :: rest)
  | rule {head body rest : List Fragment} (hhead : Textual .selector head) (hbody : Blocks body)
      (h : Blocks rest) : Blocks (head ++ .char '\x7b' :: (body ++ .char '\x7d' :: rest))
  | control {head body rest : List Fragment} (hhead : Textual .value head) (hbody : Blocks body)
      (h : Blocks rest) :
      Blocks (.char '@' :: (head ++ .char '\x7b' :: (body ++ .char '\x7d' :: rest)))
  | prelude {text rest : List Fragment} (htext : Textual .selector text) (h : Blocks rest) :
      Blocks (.char '@' :: (text ++ rest))
  | skipped {name : List Char} {skipped rest : List Fragment}
      (hname : name.map Char.toLower = "import".toList) (hskipped : ∀ f ∈ skipped, f.IsLoose)
      (h : Blocks rest) :
      Blocks (('@' :: name).map .char ++ .whole (spell skipped) :: rest)

theorem Textual.append {mode : LexicalMode} {fs gs : List Fragment} (hfs : Textual mode fs)
    (hgs : Textual mode gs) : Textual mode (fs ++ gs) := by
  induction hfs with
  | nil => exact hgs
  | cons hf _ ih => exact .cons hf (ih hgs)
  | parens hmode hinner _ _ ih => simpa using Textual.parens hmode hinner (ih hgs)
  | hole hinner _ _ ih => simpa using Textual.hole hinner (ih hgs)

theorem Blocks.append {fs gs : List Fragment} (hfs : Blocks fs) (hgs : Blocks gs) :
    Blocks (fs ++ gs) := by
  induction hfs with
  | nil => exact hgs
  | text hmode htext _ ih => simpa using Blocks.text hmode htext ih
  | semicolon _ ih => exact .semicolon ih
  | rule hhead hbody _ _ ih => simpa using Blocks.rule hhead hbody ih
  | control hhead hbody _ _ ih => simpa using Blocks.control hhead hbody ih
  | prelude htext _ ih => simpa using Blocks.prelude htext ih
  | skipped hname hskipped _ ih => simpa using Blocks.skipped hname hskipped ih

/-! ## Nesting -/

theorem isNested_char {c : Char} (hc : c ∉ structural) : isNested [c] = true := by
  have hopening : closing? c = none := by
    unfold closing?
    split <;> simp_all [structural]
  simp only [structural, List.mem_cons, List.not_mem_nil, or_false, not_or] at hc
  simp [isNested, nestedFrom, hopening, hc]

theorem isNested_of_forall {text : List Char} (h : ∀ c ∈ text, c ∉ structural) :
    isNested text = true := by
  induction text with
  | nil => rfl
  | cons c cs ih =>
    obtain ⟨hc, hcs⟩ := List.forall_mem_cons.1 h
    exact isNested_append (isNested_char hc) (ih hcs)

theorem notMem_structural_of_toLower {name word : List Char} (hname : name.map Char.toLower = word)
    (hword : ∀ c ∈ structural, c.toLower ∉ word) : ∀ c ∈ name, c ∉ structural := by
  intro c hc hmem
  refine hword c hmem ?_
  rw [← hname]
  exact List.mem_map_of_mem hc

theorem Textual.isNested_spell {mode : LexicalMode} {fs : List Fragment} (h : Textual mode fs)
    (hwhole : ∀ text, .whole text ∈ fs → isNested text = true) : isNested (spell fs) = true := by
  induction h with
  | nil => rfl
  | @cons mode f fs hf _ ih =>
    rw [spell_cons]
    refine isNested_append ?_ (ih fun text htext => hwhole text (List.mem_cons_of_mem f htext))
    cases f with
    | char c => exact isNested_char hf
    | whole text => exact hwhole text List.mem_cons_self
  | @parens mode inner fs _ _ _ ihInner ih =>
    have hinner : isNested ('(' :: (spell inner ++ [')'])) = true :=
      isNested_pair rfl (ihInner fun text htext => hwhole text (by simp [htext]))
    have hfs := ih fun text htext => hwhole text (by simp [htext])
    simpa [Fragment.text] using isNested_append hinner hfs
  | @hole mode inner fs _ _ ihInner ih =>
    have hmark : isNested ['#'] = true := rfl
    have hinner : isNested ('\x7b' :: (spell inner ++ ['\x7d'])) = true :=
      isNested_pair rfl (ihInner fun text htext => hwhole text (by simp [htext]))
    have hfs := ih fun text htext => hwhole text (by simp [htext])
    simpa [Fragment.text] using isNested_append hmark (isNested_append hinner hfs)

/-- If the texts that are taken whole are nested, then so is everything. -/
theorem Blocks.isNested_spell {fs : List Fragment} (h : Blocks fs)
    (hwhole : ∀ text, .whole text ∈ fs → isNested text = true) : isNested (spell fs) = true := by
  have hsign : isNested ['@'] = true := rfl
  induction h with
  | nil => rfl
  | text _ htext _ ih =>
    have htext := htext.isNested_spell fun text hmem => hwhole text (by simp [hmem])
    have hrest := ih fun text hmem => hwhole text (by simp [hmem])
    simpa using isNested_append htext hrest
  | semicolon _ ih =>
    have hmark : isNested [';'] = true := rfl
    have hrest := ih fun text hmem => hwhole text (by simp [hmem])
    simpa [Fragment.text] using isNested_append hmark hrest
  | @rule head body rest hhead _ _ ihBody ih =>
    have hhead := hhead.isNested_spell fun text hmem => hwhole text (by simp [hmem])
    have hbody : isNested ('\x7b' :: (spell body ++ ['\x7d'])) = true :=
      isNested_pair rfl (ihBody fun text hmem => hwhole text (by simp [hmem]))
    have hrest := ih fun text hmem => hwhole text (by simp [hmem])
    simpa [Fragment.text] using isNested_append hhead (isNested_append hbody hrest)
  | @control head body rest hhead _ _ ihBody ih =>
    have hhead := hhead.isNested_spell fun text hmem => hwhole text (by simp [hmem])
    have hbody : isNested ('\x7b' :: (spell body ++ ['\x7d'])) = true :=
      isNested_pair rfl (ihBody fun text hmem => hwhole text (by simp [hmem]))
    have hrest := ih fun text hmem => hwhole text (by simp [hmem])
    have hblock := isNested_append hhead (isNested_append hbody hrest)
    simpa [Fragment.text] using isNested_append hsign hblock
  | prelude htext _ ih =>
    have htext := htext.isNested_spell fun text hmem => hwhole text (by simp [hmem])
    have hrest := ih fun text hmem => hwhole text (by simp [hmem])
    simpa [Fragment.text] using isNested_append hsign (isNested_append htext hrest)
  | @skipped name skipped rest hname _ _ ih =>
    have hword : structural.all (fun c => decide (c.toLower ∉ "import".toList)) = true := by decide
    have hname : isNested name = true := isNested_of_forall
      (notMem_structural_of_toLower hname fun c hc =>
        of_decide_eq_true (List.all_eq_true.1 hword c hc))
    have hskipped := hwhole (spell skipped) (by simp)
    have hrest := ih fun text hmem => hwhole text (by simp [hmem])
    have himport := isNested_append hname (isNested_append hskipped hrest)
    simpa [Fragment.text] using isNested_append hsign himport

/-! ## Languages -/

/-- Fragments without brackets of their own. -/
def flat (mode : LexicalMode) : Language Fragment := {fs | ∀ f ∈ fs, f.Fits mode}

def textual (mode : LexicalMode) : Language Fragment := {fs | Textual mode fs}

def blocks : Language Fragment := {fs | Blocks fs}

def loose : Language Fragment := {fs | ∀ f ∈ fs, f.IsLoose}

/-- The brackets of a kind of token. -/
def bracket (kind : TokenKind) : Language Fragment := {kind.brackets}

/-- The sign of an at-rule. -/
def sign : Language Fragment := {[.char '@']}

/-- The end of a statement, which may be left out. -/
def stop : Language Fragment := 1 + bracket .semicolon

/-- The end of a prelude: a brace if a block follows, and otherwise the end of a statement, unless a
block is required. -/
def preludeEnd (blockRequired hasBlock : Bool) : Language Fragment :=
  if hasBlock then bracket .leftBrace else if blockRequired then 0 else stop

section Languages

variable {mode : LexicalMode} {K L M : Language Fragment}

theorem bracket_eq_one {kind : TokenKind} (h : kind.brackets = []) : bracket kind = 1 := by
  rw [bracket, h]
  rfl

theorem le_mul_of_one_le (h : 1 ≤ M) : L ≤ L * M := by
  calc
    L = L * 1 := (mul_one L).symm
    _ ≤ L * M := mul_le_mul_right h L

theorem mul_le_of_le (hM : M * M ≤ M) (hK : K ≤ M) : L * M * K ≤ L * M := by
  rw [mul_assoc]
  calc
    L * (M * K) ≤ L * (M * M) := mul_le_mul_right (mul_le_mul_right hK M) L
    _ ≤ L * M := mul_le_mul_right hM L

theorem one_le_textual : 1 ≤ textual mode := by
  rintro _ rfl
  exact .nil mode

theorem textual_mul_le : textual mode * textual mode ≤ textual mode := by
  rintro _ ⟨fs, hfs, gs, hgs, rfl⟩
  exact Textual.append hfs hgs

theorem flat_le_textual : flat mode ≤ textual mode := by
  intro fs hfs
  induction fs with
  | nil => exact .nil mode
  | cons f fs ih =>
    obtain ⟨hf, hfs⟩ := List.forall_mem_cons.1 hfs
    exact .cons hf (ih hfs)

theorem textual_mul_flat_le : L * textual mode * flat mode ≤ L * textual mode :=
  mul_le_of_le textual_mul_le flat_le_textual

theorem flat_mul_le : flat mode * flat mode ≤ flat mode := by
  rintro _ ⟨fs, hfs, gs, hgs, rfl⟩
  exact List.forall_mem_append.2 ⟨hfs, hgs⟩

theorem parens_le_textual (hmode : mode ≠ .selector) :
    bracket .leftParen * textual .value * bracket .rightParen ≤ textual mode := by
  rintro _ ⟨_, ⟨_, rfl, inner, hinner, rfl⟩, _, rfl, rfl⟩
  exact .parens hmode hinner (.nil mode)

theorem hole_le_textual :
    bracket .interpolation * textual .value * bracket .rightBrace ≤ textual mode := by
  rintro _ ⟨_, ⟨_, rfl, inner, hinner, rfl⟩, _, rfl, rfl⟩
  exact .hole hinner (.nil mode)

theorem parens_absorbed (hmode : mode ≠ .selector) :
    L * textual mode * bracket .leftParen * textual .value * bracket .rightParen ≤
      L * textual mode := by
  rw [mul_assoc, mul_assoc, ← mul_assoc (bracket _)]
  exact mul_le_of_le textual_mul_le (parens_le_textual hmode)

theorem hole_absorbed :
    L * textual mode * bracket .interpolation * textual .value * bracket .rightBrace ≤
      L * textual mode := by
  rw [mul_assoc, mul_assoc, ← mul_assoc (bracket _)]
  exact mul_le_of_le textual_mul_le hole_le_textual

theorem one_le_stop : 1 ≤ stop := fun _ h => .inl h

theorem semicolon_le_stop : bracket .semicolon ≤ stop := fun _ h => .inr h

theorem one_le_blocks : 1 ≤ blocks := by
  rintro _ rfl
  exact .nil

theorem blocks_mul_le : blocks * blocks ≤ blocks := by
  rintro _ ⟨fs, hfs, gs, hgs, rfl⟩
  exact Blocks.append hfs hgs

theorem textual_le_blocks (hmode : mode ≠ .selector) : textual mode ≤ blocks := by
  intro fs hfs
  have hblocks := Blocks.text hmode hfs .nil
  rwa [List.append_nil] at hblocks

theorem semicolon_le_blocks : bracket .semicolon ≤ blocks := by
  rintro _ rfl
  exact .semicolon .nil

theorem rule_le_blocks :
    textual .selector * bracket .leftBrace * blocks * bracket .rightBrace ≤ blocks := by
  rintro _ ⟨_, ⟨_, ⟨head, hhead, _, rfl, rfl⟩, body, hbody, rfl⟩, _, rfl, rfl⟩
  show Blocks _
  have hblocks := Blocks.rule hhead hbody .nil
  simpa [TokenKind.brackets] using hblocks

theorem control_le_blocks :
    sign * textual .value * bracket .leftBrace * blocks * bracket .rightBrace ≤ blocks := by
  rintro _ ⟨_, ⟨_, ⟨_, ⟨_, rfl, head, hhead, rfl⟩, _, rfl, rfl⟩, body, hbody, rfl⟩, _, rfl, rfl⟩
  show Blocks _
  have hblocks := Blocks.control hhead hbody .nil
  simpa [TokenKind.brackets] using hblocks

theorem prelude_le_blocks : sign * textual .selector ≤ blocks := by
  rintro _ ⟨_, rfl, text, htext, rfl⟩
  show Blocks _
  have hblocks := Blocks.prelude htext .nil
  simpa using hblocks

theorem stop_le_blocks : stop ≤ blocks := by
  rintro fs (hfs | hfs)
  · exact one_le_blocks hfs
  · exact semicolon_le_blocks hfs

/-- What belongs to a block is absorbed by it. -/
theorem blocks_absorb (hK : K ≤ L * blocks) (hM : M ≤ blocks) : K * M ≤ L * blocks :=
  (mul_le_mul_left hK M).trans (mul_le_of_le blocks_mul_le hM)

theorem sign_mul_textual_le : sign * textual mode ≤ textual mode := by
  rintro _ ⟨_, rfl, text, htext, rfl⟩
  have hsign : '@' ∉ structural := by decide
  exact .cons hsign htext

theorem chars_le_sign_mul {text : List Char}
    (h : ∃ name, text = '@' :: name ∧ ∀ c ∈ name, c ∉ structural) :
    L * {text.map .char} ≤ L * sign * textual mode := by
  obtain ⟨name, rfl, hname⟩ := h
  rw [mul_assoc]
  refine mul_le_mul_right ?_ L
  rintro _ rfl
  refine ⟨[.char '@'], rfl, name.map .char, flat_le_textual fun f hf => ?_, rfl⟩
  obtain ⟨c, hc, rfl⟩ := List.mem_map.1 hf
  exact hname c hc

theorem control_absorbed :
    L * blocks * sign * textual .value * bracket .leftBrace * blocks * bracket .rightBrace ≤
      L * blocks := by
  have hcontrol := blocks_absorb (K := L * blocks) le_rfl control_le_blocks
  simpa only [mul_assoc] using hcontrol

theorem rule_absorbed :
    L * blocks * textual .selector * bracket .leftBrace * blocks * bracket .rightBrace ≤
      L * blocks := by
  have hrule := blocks_absorb (K := L * blocks) le_rfl rule_le_blocks
  simpa only [mul_assoc] using hrule

theorem flat_le_loose : flat .value ≤ loose := by
  intro fs hfs f hf
  have hf := hfs f hf
  cases f with
  | char c =>
    have hc : c ∉ structural := hf
    simp only [structural, List.mem_cons, List.not_mem_nil, or_false, not_or] at hc
    simp [Fragment.IsLoose, hc]
  | whole text => exact hf

theorem loose_mul_le : loose * loose ≤ loose := by
  rintro _ ⟨fs, hfs, gs, hgs, rfl⟩
  exact List.forall_mem_append.2 ⟨hfs, hgs⟩

theorem bracket_le_loose {kind : TokenKind} (hkind : kind ≠ .semicolon ∧ kind ≠ .rightBrace) :
    bracket kind ≤ loose := by
  rintro _ rfl
  obtain ⟨hsemicolon, hright⟩ := hkind
  cases kind <;> simp_all [loose, TokenKind.brackets, Fragment.IsLoose]

theorem statement_absorbed (hK : K ≤ L * blocks) (hmode : mode ≠ .selector) :
    K * flat mode * stop ≤ L * blocks :=
  blocks_absorb (blocks_absorb hK (flat_le_textual.trans (textual_le_blocks hmode)))
    stop_le_blocks

end Languages

end Stylesheet
