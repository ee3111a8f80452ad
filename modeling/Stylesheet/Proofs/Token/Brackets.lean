import Stylesheet.Proofs.Token.Values

/-!
# Brackets in tokens

A token that is no bracket itself may still hold some: a bracketed text is one token, and so is a
url. Texts are divided into fragments here, single characters and texts with brackets that nobody
looks at.

* `isNested`: whether the brackets of a text are properly nested.
* `Fragment`, `spell`: the fragments of a text.
* `Unchecked`: the texts that one token may take whole.
* `Token.Fits`: a token by its fragments; `Lexer.next_some`: every token fits.
-/

namespace Stylesheet

open Lexeme

/-! ## Nesting -/

/-- The bracket that closes one. -/
def closing? : Char → Option Char
  | '(' => some ')'
  | '[' => some ']'
  | '\x7b' => some '\x7d'
  | _ => none

/-- Whether the brackets of a text are closed from the inside out, and so are the pending ones. -/
def nestedFrom : (pending : List Char) → List Char → Bool
  | pending, [] => pending.isEmpty
  | pending, c :: cs =>
    match closing? c with
    | some d => nestedFrom (d :: pending) cs
    | none =>
      if c ∈ [')', ']', '\x7d'] then pending.head? = some c && nestedFrom pending.tail cs
      else nestedFrom pending cs

def isNested (text : List Char) : Bool := nestedFrom [] text

/-- A text that closes the pending brackets leaves the others as they are. -/
theorem nestedFrom_append {pending text : List Char} (h : nestedFrom pending text = true)
    (outer rest : List Char) :
    nestedFrom (pending ++ outer) (text ++ rest) = nestedFrom outer rest := by
  induction text generalizing pending with
  | nil =>
    obtain rfl : pending = [] := List.isEmpty_iff.1 h
    rfl
  | cons c cs ih =>
    rw [List.cons_append, nestedFrom]
    rw [nestedFrom] at h
    split at h
    next d hd => exact ih h
    next hd =>
      split at h
      next hclosing =>
        rw [if_pos hclosing]
        obtain ⟨hhead, h⟩ := (Bool.and_eq_true _ _).mp h
        obtain ⟨others, rfl⟩ := List.head?_eq_some_iff.1 (of_decide_eq_true hhead)
        simpa using ih h
      next hclosing =>
        rw [if_neg hclosing]
        exact ih h

/-- Brackets that are properly nested can be left out. -/
theorem nestedFrom_of_isNested {text : List Char} (h : isNested text = true)
    (outer rest : List Char) : nestedFrom outer (text ++ rest) = nestedFrom outer rest :=
  nestedFrom_append h outer rest

theorem isNested_append {text rest : List Char} (htext : isNested text = true)
    (hrest : isNested rest = true) : isNested (text ++ rest) = true := by
  rw [isNested, nestedFrom_of_isNested htext]
  exact hrest

theorem isNested_pair {opening closing : Char} (hpair : closing? opening = some closing)
    {inner : List Char} (hinner : isNested inner = true) :
    isNested (opening :: (inner ++ [closing])) = true := by
  have hclosing : closing? closing = none ∧ closing ∈ [')', ']', '\x7d'] := by
    unfold closing? at hpair
    split at hpair <;> first | (cases hpair; decide) | cases hpair
  rw [isNested, nestedFrom, hpair]
  dsimp only
  rw [nestedFrom_of_isNested hinner, nestedFrom, hclosing.1]
  dsimp only
  rw [if_pos hclosing.2]
  simp [nestedFrom]

/-! ## Fragments -/

/-- The brackets, and the mark that ends a statement. -/
def structural : List Char := ['(', ')', '[', ']', '\x7b', '\x7d', ';']

/-- A piece of a text. -/
inductive Fragment where
  | char (c : Char)
  /-- A text that is passed over as a whole. -/
  | whole (text : List Char)
  deriving DecidableEq

def Fragment.text : Fragment → List Char
  | char c => [c]
  | whole text => text

/-- The text of some fragments. -/
def spell (fragments : List Fragment) : List Char := fragments.flatMap Fragment.text

@[simp] theorem spell_nil : spell [] = [] := rfl

@[simp] theorem spell_cons (f : Fragment) (fs : List Fragment) :
    spell (f :: fs) = f.text ++ spell fs := rfl

@[simp] theorem spell_append (fs gs : List Fragment) : spell (fs ++ gs) = spell fs ++ spell gs :=
  List.flatMap_append

@[simp] theorem spell_map_char (text : List Char) : spell (text.map .char) = text := by
  induction text with
  | nil => rfl
  | cons c cs ih =>
    rw [List.map_cons, spell_cons, ih]
    rfl

/-- The texts in which brackets are not matched, by the mode that they are read in. -/
inductive Unchecked : LexicalMode → List Char → Prop
  | stray {mode : LexicalMode} (hmode : mode ≠ .selector) : Unchecked mode [']']
  | squared {mode : LexicalMode} {run : List Char} (h : Bracketed '[' ']' 0 run) :
      Unchecked mode ('[' :: run)
  | round {run : List Char} (h : Bracketed '(' ')' 0 run) : Unchecked .selector ('(' :: run)
  | url {mode : LexicalMode} {name inner : List Char} (hmode : mode ≠ .selector)
      (hname : name.map Char.toLower = ['u', 'r', 'l']) (hinner : ')' ∉ inner) :
      Unchecked mode (name ++ '(' :: (inner ++ [')']))

/-- A fragment without a bracket of its own. -/
def Fragment.Fits (mode : LexicalMode) : Fragment → Prop
  | char c => c ∉ structural
  | whole text => Unchecked mode text

/-- The brackets that a kind of token stands for. -/
def TokenKind.brackets : TokenKind → List Fragment
  | leftParen => [.char '(']
  | rightParen => [.char ')']
  | leftBrace => [.char '\x7b']
  | rightBrace => [.char '\x7d']
  | semicolon => [.char ';']
  | interpolation => [.char '#', .char '\x7b']
  | _ => []

/-- A text without strings, escapes and comments. -/
def Bare (text : List Char) : Prop := ∀ c ∈ text, c ∉ ['"', '\'', '\\', '/']

instance : DecidablePred Bare := fun text => List.decidableBAll _ text

/-- A token by its fragments. -/
structure Token.Fits (mode : LexicalMode) (t : Token) : Prop where
  fragments : ∃ fs : List Fragment, (∀ f ∈ fs, f.Fits mode) ∧
    t.text.toList = spell (fs ++ t.kind.brackets)
  atKeyword : t.kind = .atKeyword → ∃ name, t.text.toList = '@' :: name ∧ ∀ c ∈ name, c ∉ structural
  selector : mode = .selector → t.kind ≠ .leftParen ∧ t.kind ≠ .rightParen

/-! ## Bare texts -/

section Bare

variable {text rest : List Char}

theorem Bare.isQuote_eq_false (h : Bare text) {c : Char} (hc : c ∈ text) : isQuote c = false := by
  have hmarks := h c hc
  simp only [List.mem_cons, List.not_mem_nil, or_false, not_or] at hmarks
  simp [isQuote, hmarks]

theorem Bare.left (h : Bare (text ++ rest)) : Bare text := fun c hc => h c (List.mem_append_left _ hc)

theorem Bare.right (h : Bare (text ++ rest)) : Bare rest :=
  fun c hc => h c (List.mem_append_right _ hc)

theorem Bare.isBlank_of_gap {comments : Bool} {gap : List Char} (h : Bare gap)
    (hgap : Gap comments gap) : ∀ c ∈ gap, Text.isBlank c = true := by
  induction hgap with
  | nil => simp
  | blank hc _ ih =>
    exact List.forall_mem_cons.2 ⟨hc, ih fun c hc => h c (List.mem_cons_of_mem _ hc)⟩
  | line _ _ _ => exact absurd (h '/' List.mem_cons_self) (by decide)
  | comment _ _ _ _ => exact absurd (h '/' List.mem_cons_self) (by decide)

theorem notMem_structural_of_isQuiet {c : Char} (hc : isQuiet c = true) : c ∉ structural := by
  simp only [isQuiet, decide_eq_true_eq, List.mem_cons, List.not_mem_nil, or_false, not_or] at hc
  simp [structural, hc]

/-- In a bare text a name and what else is quiet has no brackets. -/
theorem notMem_structural_of_quiet (h : Bare text)
    (hquiet : '\\' ∈ text ∨ ∀ c ∈ text, isQuiet c = true) : ∀ c ∈ text, c ∉ structural := by
  rcases hquiet with hescape | hquiet
  · exact absurd (h _ hescape) (by decide)
  · exact fun c hc => notMem_structural_of_isQuiet (hquiet c hc)

end Bare

/-! ## Lexemes -/

namespace Lexeme

/-- A text without brackets, as fragments. -/
theorem exists_fits_of_forall {mode : LexicalMode} {kind : TokenKind} (hkind : kind.brackets = [])
    {text : List Char} (h : ∀ c ∈ text, c ∉ structural) :
    ∃ fs : List Fragment, (∀ f ∈ fs, f.Fits mode) ∧ text = spell (fs ++ kind.brackets) := by
  refine ⟨text.map .char, ?_, ?_⟩
  · simpa [Fragment.Fits] using h
  · rw [hkind, List.append_nil, spell_map_char]

theorem urlEnd_ok {start n m : Nat} {cs : List Char} (hbare : Bare cs)
    (h : urlEnd start n cs = .ok m) :
    ∃ inner rest, cs = inner ++ ')' :: rest ∧ m = n + inner.length + 1 ∧ ')' ∉ inner := by
  fun_induction urlEnd start n cs with
  | case1 => cases h
  | case2 n c cs hquote =>
    rw [hbare.isQuote_eq_false List.mem_cons_self] at hquote
    cases hquote
  | case3 n c cs hquote =>
    rw [hbare.isQuote_eq_false List.mem_cons_self] at hquote
    cases hquote
  | case4 n cs =>
    cases h
    exact ⟨[], cs, rfl, rfl, by simp⟩
  | case5 n c cs hquote hc ih =>
    obtain ⟨inner, rest, rfl, rfl, hinner⟩ := ih (fun d hd => hbare d (List.mem_cons_of_mem c hd)) h
    refine ⟨c :: inner, rest, rfl, by simp; omega, ?_⟩
    simp [hinner, Ne.symm hc]

theorem identLexeme_url {cs : List Char} {n : Nat} (hbare : Bare cs)
    (h : identLexeme cs = .ok (.url, n)) {mode : LexicalMode} (hmode : mode ≠ .selector) :
    Unchecked mode (cs.take n) := by
  simp only [identLexeme] at h
  split at h
  next hurl =>
    obtain ⟨-, hend⟩ := kind_of_map h
    obtain ⟨hname, hhead⟩ := hurl
    obtain ⟨tail, htail⟩ := List.head?_eq_some_iff.1 hhead
    rw [htail, List.drop_succ_cons, List.drop_zero] at hend
    generalize nameLength 0 cs = k at hname htail hend
    have hk : (cs.take k).length = k := by
      have hdrop := congrArg List.length htail
      rw [List.length_drop, List.length_cons] at hdrop
      rw [List.length_take]
      omega
    have hcs : cs = cs.take k ++ '(' :: tail := by rw [← htail, List.take_append_drop]
    have htailBare : Bare tail := by
      rw [hcs] at hbare
      exact fun c hc => hbare.right c (List.mem_cons_of_mem _ hc)
    obtain ⟨inner, rest, rfl, rfl, hinner⟩ := urlEnd_ok htailBare hend
    have hurl : cs.take k ++ '(' :: (inner ++ [')']) <+: cs := by
      refine ⟨rest, ?_⟩
      rw [List.append_assoc, List.cons_append, List.append_assoc]
      exact hcs.symm
    have hlength : k + 1 + inner.length + 1 = (cs.take k ++ '(' :: (inner ++ [')'])).length := by
      simp only [List.length_append, hk, List.length_cons, List.length_nil]
      omega
    rw [hlength, ← List.prefix_iff_eq_take.1 hurl]
    exact .url hmode hname hinner
  next => cases h

theorem pair?_notMem {c : Char} {next : Option Char} {kind : TokenKind}
    (h : next.bind (pair? c) = some kind) : kind ∉ [.url, .text, .atKeyword] := by
  obtain ⟨d, -, h⟩ := Option.bind_eq_some_iff.1 h
  unfold pair? at h
  split at h
  case h_6 => cases h
  all_goals
    cases h
    decide

theorem identLexeme_kind {cs : List Char} {kind : TokenKind} {n : Nat}
    (h : identLexeme cs = .ok (kind, n)) : kind = .url ∨ kind = .ident := by
  simp only [identLexeme] at h
  split at h
  · exact .inl (kind_of_map h).1.symm
  · cases h
    exact .inr rfl

theorem single_notMem (c : Char) : single c ∉ [.url, .text, .atKeyword] := by
  unfold single
  split <;> decide

/-- How urls, bracketed texts and at-keywords are found. -/
theorem valueLexeme_cases {signed : Bool} {c : Char} {cs : List Char} {kind : TokenKind} {n : Nat}
    (h : valueLexeme signed c cs = .ok (kind, n)) (hkind : kind ∈ [.url, .text, .atKeyword]) :
    kind = .url ∧ identLexeme (c :: cs) = .ok (.url, n) ∨
    kind = .text ∧ c = '[' ∧ bracketEnd '[' ']' 0 1 1 cs = .ok n ∨
    kind = .atKeyword ∧ c = '@' ∧ n = nameLength 1 cs := by
  unfold valueLexeme at h
  repeat' split at h
  · cases h
  · cases h
    simp at hkind
  · obtain ⟨rfl, -⟩ := kind_of_map h
    simp at hkind
  · cases h
    simp at hkind
  · cases h
    simp at hkind
  · rename_i hsign _ hdollar
    cases h
    exact .inr (.inr ⟨rfl, hsign.resolve_left hdollar, rfl⟩)
  · cases h
    simp at hkind
  · rename_i hpair
    cases h
    exact absurd hkind (pair?_notMem hpair)
  · cases h
    simp at hkind
  · cases h
    simp at hkind
  · cases h
    simp at hkind
  · rename_i hbracket
    obtain ⟨rfl, hend⟩ := kind_of_map h
    exact .inr (.inl ⟨rfl, hbracket, hend⟩)
  · cases h
    simp at hkind
  · rcases identLexeme_kind h with rfl | rfl
    · exact .inl ⟨rfl, h⟩
    · simp at hkind
  · cases h
    exact absurd hkind (single_notMem c)

/-- A lexeme that holds brackets takes them whole. -/
theorem valueLexeme_whole {signed : Bool} {c : Char} {cs : List Char} {kind : TokenKind} {n : Nat}
    (h : valueLexeme signed c cs = .ok (kind, n)) (hkind : kind = .url ∨ kind = .text)
    (hbare : Bare (c :: cs)) {mode : LexicalMode} (hmode : mode ≠ .selector) :
    Unchecked mode ((c :: cs).take n) := by
  have hmem : kind ∈ [.url, .text, .atKeyword] := by
    rcases hkind with rfl | rfl <;> simp
  obtain ⟨rfl, hurl⟩ | ⟨-, rfl, hend⟩ | ⟨rfl, -⟩ := valueLexeme_cases h hmem
  · exact identLexeme_url hbare hurl hmode
  · obtain ⟨run, rest, rfl, rfl, hrun⟩ := bracketEnd_ok hend
    rw [Nat.add_comm, List.take_succ_cons, List.take_left]
    exact .squared hrun
  · simp at hkind

theorem brackets_of_notMem_markKinds {kind : TokenKind} (h : kind ∉ markKinds) :
    kind.brackets = [] := by
  cases kind <;> first | rfl | exact absurd (by decide) h

/-- A lexeme of a value is made of fragments, and of the brackets that its kind stands for. -/
theorem valueLexeme_fits {signed : Bool} {c : Char} {cs : List Char} {kind : TokenKind} {n : Nat}
    (h : valueLexeme signed c cs = .ok (kind, n)) (hbare : Bare (c :: cs))
    (hblank : Text.isBlank c = false) {mode : LexicalMode} (hmode : mode ≠ .selector) :
    ∃ fs : List Fragment, (∀ f ∈ fs, f.Fits mode) ∧
      (c :: cs).take n = spell (fs ++ kind.brackets) := by
  have hslash : c ≠ '/' := fun hc => absurd (hbare c List.mem_cons_self) (by simp [hc])
  have hgap : ¬ StartsGap true (c :: cs) := by
    rintro (hc | hc | hc)
    · rw [hblank] at hc
      cases hc
    · exact hslash hc.1
    · exact hslash hc.2.1
  have htake : Bare ((c :: cs).take n) := fun d hd => hbare d (List.mem_of_mem_take hd)
  have htoken := valueLexeme_ok h hgap
  generalize (c :: cs).drop n = rest at htoken
  generalize htext : (c :: cs).take n = text at htoken htake
  cases htoken with
  | @string quote _ _ hquote _ =>
    rw [htake.isQuote_eq_false List.mem_cons_self] at hquote
    cases hquote
  | block hkind =>
    refine ⟨[.whole text], List.forall_mem_singleton.2 ?_, ?_⟩
    · rw [← htext]
      exact valueLexeme_whole h hkind hbare hmode
    · rcases hkind with rfl | rfl <;> simp [TokenKind.brackets, Fragment.text]
  | quiet hkind hquiet =>
    exact exists_fits_of_forall (brackets_of_notMem_markKinds hkind)
      (notMem_structural_of_quiet htake hquiet)
  | @hash name _ hname _ =>
    have hquiet := notMem_structural_of_quiet
      (fun d hd => htake d (List.mem_cons_of_mem _ hd)) hname
    exact exists_fits_of_forall rfl (List.forall_mem_cons.2 ⟨by decide, hquiet⟩)
  | slash => exact absurd (htake '/' List.mem_cons_self) (by decide)
  | interpolation => exact ⟨[], by simp, rfl⟩
  | @mark d _ hd =>
    by_cases hstray : d = ']'
    · subst hstray
      exact ⟨[.whole [']']], List.forall_mem_singleton.2 (.stray hmode), rfl⟩
    · refine ⟨[], by simp, ?_⟩
      simp only [itemMarks, List.mem_cons, List.not_mem_nil, or_false, hstray] at hd
      rcases hd with rfl | rfl | rfl | rfl | rfl <;> rfl

theorem Run.fits {rest text : List Char} {groups : List (List Char)} (h : Run rest text groups) :
    ∃ fs : List Fragment, (∀ f ∈ fs, f.Fits .selector) ∧ text = spell fs := by
  induction h with
  | nil => exact ⟨[], by simp, rfl⟩
  | @char c text groups hbracket hc _ ih =>
    obtain ⟨fs, hfs, rfl⟩ := ih
    refine ⟨.char c :: fs, List.forall_mem_cons.2 ⟨?_, hfs⟩, rfl⟩
    simp only [endsSelectorText, Bool.or_eq_false_iff, List.contains_eq_mem] at hc
    simp_all [Fragment.Fits, structural]
  | @group opening closing group text groups hbrackets hgroup _ ih =>
    obtain ⟨fs, hfs, rfl⟩ := ih
    refine ⟨.whole (opening :: group) :: fs, List.forall_mem_cons.2 ⟨?_, hfs⟩, rfl⟩
    simp only [brackets, List.mem_cons, Prod.mk.injEq, List.not_mem_nil, or_false] at hbrackets
    rcases hbrackets with ⟨rfl, rfl⟩ | ⟨rfl, rfl⟩
    · exact .round hgroup
    · exact .squared hgroup

theorem selectorLexeme_fits {c : Char} {cs : List Char} {kind : TokenKind} {n : Nat}
    (h : selectorLexeme c cs = .ok (kind, n)) (hbare : Bare (c :: cs)) :
    ∃ fs : List Fragment, (∀ f ∈ fs, f.Fits .selector) ∧
      (c :: cs).take n = spell (fs ++ kind.brackets) := by
  obtain ⟨text, rest, htext, rfl, htoken⟩ := selectorLexeme_ok h
  rw [htext, List.take_left]
  rw [htext] at hbare
  cases htoken with
  | comma => exact exists_fits_of_forall rfl (List.forall_mem_singleton.2 (by decide))
  | ampersand => exact exists_fits_of_forall rfl (List.forall_mem_singleton.2 (by decide))
  | leftBrace => exact ⟨[], by simp, rfl⟩
  | rightBrace => exact ⟨[], by simp, rfl⟩
  | semicolon => exact ⟨[], by simp, rfl⟩
  | interpolation => exact ⟨[], by simp, rfl⟩
  | string hquote _ =>
    rw [hbare.isQuote_eq_false List.mem_cons_self] at hquote
    cases hquote
  | text hrun _ =>
    obtain ⟨fs, hfs, rfl⟩ := hrun.fits
    exact ⟨fs, hfs, by simp [TokenKind.brackets]⟩

theorem selectorLexeme_kind {c : Char} {cs : List Char} {kind : TokenKind} {n : Nat}
    (h : selectorLexeme c cs = .ok (kind, n)) :
    kind ∉ [.atKeyword, .leftParen, .rightParen] := by
  obtain ⟨text, rest, -, -, htoken⟩ := selectorLexeme_ok h
  cases htoken <;> decide

/-- An at-keyword is a sign and a name. -/
theorem valueLexeme_atKeyword {signed : Bool} {c : Char} {cs : List Char} {n : Nat}
    (h : valueLexeme signed c cs = .ok (.atKeyword, n)) (hbare : Bare (c :: cs)) :
    ∃ name, (c :: cs).take n = '@' :: name ∧ ∀ c ∈ name, c ∉ structural := by
  obtain ⟨hkind, -⟩ | ⟨hkind, -⟩ | ⟨-, rfl, rfl⟩ := valueLexeme_cases h (by simp)
  · cases hkind
  · cases hkind
  · obtain ⟨k, hk, hname⟩ := take_nameLength 1 cs
    rw [hk, Nat.add_comm, List.take_succ_cons]
    refine ⟨cs.take k, rfl, notMem_structural_of_quiet (fun d hd => ?_) hname⟩
    exact hbare d (List.mem_cons_of_mem _ (List.mem_of_mem_take hd))

end Lexeme

/-! ## The next token -/

namespace Lexer

variable {l l' : Lexer}

theorem emit_text (l : Lexer) (kind : TokenKind) (n : Nat) (spaceBefore : Bool) :
    (l.emit kind n spaceBefore).1.text.toList = l.rest.take n := by
  simp [emit]

theorem fits_unit (hbare : Bare l.rest) (mode : LexicalMode) :
    (l.emit .unit (unitLength l.rest) false).1.Fits mode := by
  refine ⟨?_, fun hkind => (by cases hkind), fun _ => ⟨by simp [emit], by simp [emit]⟩⟩
  rw [emit_text]
  have htake : Bare (l.rest.take (unitLength l.rest)) := fun d hd =>
    hbare d (List.mem_of_mem_take hd)
  refine exists_fits_of_forall rfl (notMem_structural_of_quiet htake ?_)
  rw [unitLength]
  split
  next hpercent =>
    obtain ⟨rest, hrest⟩ := List.head?_eq_some_iff.1 hpercent
    rw [hrest]
    exact .inr (List.forall_mem_singleton.2 (by decide))
  next =>
    obtain ⟨k, hk, hname⟩ := take_nameLength 0 l.rest
    rw [hk, Nat.zero_add]
    exact hname

theorem fits_emit {spaceBefore : Bool} {c : Char} {cs : List Char} {kind : TokenKind} {n : Nat}
    (hrest : l.rest = c :: cs) (hbare : Bare (c :: cs)) (hblank : Text.isBlank c = false)
    (h : l.lexeme spaceBefore c cs = .ok (kind, n)) :
    (l.emit kind n spaceBefore).1.Fits l.mode := by
  have hkind : (l.emit kind n spaceBefore).1.kind = kind := rfl
  constructor
  · rw [emit_text, hrest, hkind]
    unfold lexeme at h
    split at h
    next hmode =>
      rw [hmode]
      exact selectorLexeme_fits h hbare
    next hmode => exact valueLexeme_fits h hbare hblank (by simp [hmode])
    next hmode => exact valueLexeme_fits h hbare hblank (by simp [hmode])
  · rw [emit_text, hrest, hkind]
    rintro rfl
    unfold lexeme at h
    split at h
    · exact absurd (by simp) (selectorLexeme_kind h)
    · exact valueLexeme_atKeyword h hbare
    · exact valueLexeme_atKeyword h hbare
  · intro hmode
    rw [lexeme, hmode] at h
    have hmem := selectorLexeme_kind h
    simp only [List.mem_cons, List.not_mem_nil, or_false, not_or] at hmem
    exact hmem.2

/-- In a bare text only blanks stand between tokens. -/
theorem gapLength_bare {comments : Bool} {text : List Char} {n : Nat} (hbare : Bare text)
    (h : gapLength comments 0 text = .ok n) :
    ∃ gap rest, text = gap ++ rest ∧ n = gap.length ∧ (∀ c ∈ gap, Text.isBlank c = true) ∧
      ∀ c cs, rest = c :: cs → Text.isBlank c = false := by
  obtain ⟨gap, rest, rfl, rfl, hgap, hend⟩ := gapLength_ok h
  refine ⟨gap, rest, rfl, Nat.zero_add _, hbare.left.isBlank_of_gap hgap, ?_⟩
  rintro c cs rfl
  exact Bool.eq_false_iff.2 fun hc => hend (.inl hc)

/-- Every token fits, and only blanks stand before it. -/
theorem next_some {t : Token} (hbare : Bare l.rest) (h : l.next = (.ok (some t), l')) :
    l'.mode = l.mode ∧ t.source = t.text.toList ++ l'.rest ∧ t.Fits l.mode ∧
      ∃ gap, l.rest = gap ++ t.source ∧ ∀ c ∈ gap, Text.isBlank c = true := by
  have hsource := (next_emitted h).1.source
  obtain ⟨-, heq⟩ | ⟨-, n, hgap, ⟨-, hnone, -⟩ | ⟨c, cs, kind, k, hrest, hlexeme, heq⟩⟩ := next_ok h
  · cases heq
    exact ⟨rfl, hsource, fits_unit hbare l.mode, [], rfl, by simp⟩
  · cases hnone
  · obtain ⟨gap, rest, hl, rfl, hblanks, hstart⟩ := gapLength_bare hbare hgap
    have hpass : (l.pass gap.length).rest = rest := by
      show l.rest.drop gap.length = rest
      rw [hl, List.drop_left]
    obtain rfl : rest = c :: cs := hpass.symm.trans hrest
    rw [hl] at hbare
    cases heq
    refine ⟨rfl, hsource, fits_emit hrest hbare.right (hstart c cs rfl) hlexeme, gap, ?_, hblanks⟩
    show l.rest = gap ++ (l.pass gap.length).rest
    rw [hpass, hl]

/-- Behind the last token there are only blanks. -/
theorem next_none (hbare : Bare l.rest) (h : l.next = (.ok none, l')) :
    l'.mode = l.mode ∧ l'.rest = [] ∧ ∀ c ∈ l.rest, Text.isBlank c = true := by
  obtain ⟨-, heq⟩ | ⟨-, n, hgap, ⟨hrest, -, rfl⟩ | ⟨c, cs, kind, k, -, -, heq⟩⟩ := next_ok h
  · cases heq
  · obtain ⟨gap, rest, hl, rfl, hblanks, -⟩ := gapLength_bare hbare hgap
    refine ⟨rfl, hrest, ?_⟩
    have hdrop : l.rest.drop gap.length = [] := hrest
    rw [hl, List.drop_left] at hdrop
    rw [hl, hdrop, List.append_nil]
    exact hblanks
  · cases heq

end Lexer

end Stylesheet
