import Mathlib.Data.List.DropRight
import Stylesheet.Text.Lines
import Stylesheet.Text.Position

/-!
# Positions and lines of a text

A position that was counted character by character says how many newlines come before it and how
many characters come after the last of them. The lines quoted with a diagnostic are those of the
text, the failing one last; only the empty line behind a final newline is no line and cannot be
quoted.

* `Position.advance_start`: the position after a text.
* `IsLine`: the line of a text with a number.
* `SourceLine.around_prefix`: the lines quoted for the position after a prefix.
-/

namespace Stylesheet

/-! ## Positions -/

theorem Position.advance_start (text : List Char) :
    Position.start.advance text =
      ⟨1 + text.count '\n', 1 + (text.rtakeWhile (· != '\n')).length⟩ := by
  induction text using List.reverseRecOn with
  | nil => rfl
  | append_singleton text c ih =>
    rw [advance_append, ih, advance_cons, advance_nil, next, List.count_append]
    by_cases hc : c = '\n'
    · subst hc
      simp
      omega
    · simp [hc]
      omega

/-! ## Lines -/

namespace Text

/-- What stands after a line: nothing, or a newline, maybe with a carriage return before it. -/
inductive EndsLine (line : List Char) : List Char → Prop
  | text (h : line ≠ []) : EndsLine line []
  | newline (h : line.getLast? ≠ some '\r') (rest : List Char) : EndsLine line ('\n' :: rest)
  | carriageReturn (rest : List Char) : EndsLine line ('\r' :: '\n' :: rest)

/-- The line of a text with a number, counted from one. -/
def IsLine (text : List Char) (number : Nat) (line : List Char) : Prop :=
  ∃ before after, text = before ++ (line ++ after) ∧ number = 1 + before.count '\n' ∧
    (before = [] ∨ before.getLast? = some '\n') ∧ '\n' ∉ line ∧ EndsLine line after

theorem endedLine_spec (line rest : List Char) (hline : '\n' ∉ line) :
    ∃ after, line.reverse ++ '\n' :: rest = endedLine line ++ after ∧ '\n' ∉ endedLine line ∧
      EndsLine (endedLine line) after := by
  unfold endedLine
  split
  · rename_i line
    refine ⟨'\r' :: '\n' :: rest, by simp, ?_, .carriageReturn rest⟩
    simp only [List.mem_cons, not_or] at hline
    simpa using hline.2
  · rename_i hreturn
    refine ⟨'\n' :: rest, rfl, by simpa using hline, .newline ?_ rest⟩
    rw [List.getLast?_reverse]
    intro hhead
    obtain ⟨tail, rfl⟩ := List.head?_eq_some_iff.1 hhead
    exact hreturn tail rfl

/-- The lines that are split off behind the text `before`, which ends with a line. -/
theorem isLine_linesFrom (before line cs : List Char) (hline : '\n' ∉ line)
    (hbefore : before = [] ∨ before.getLast? = some '\n') :
    ∀ l ∈ (linesFrom line cs).zipIdx (1 + before.count '\n'),
      IsLine (before ++ (line.reverse ++ cs)) l.2 l.1 := by
  induction cs generalizing before line with
  | nil =>
    intro l hl
    unfold linesFrom at hl
    split at hl
    · simp at hl
    · rename_i hne
      obtain rfl : l = (line.reverse, 1 + before.count '\n') := by simpa using hl
      refine ⟨before, [], by simp, rfl, hbefore, by simpa using hline, .text ?_⟩
      simpa using hne
  | cons c cs ih =>
    intro l hl
    by_cases hc : c = '\n'
    · subst hc
      rw [linesFrom, List.zipIdx_cons, List.mem_cons] at hl
      obtain rfl | hl := hl
      · obtain ⟨after, hsplit, hmem, hends⟩ := endedLine_spec line cs hline
        exact ⟨before, after, by rw [hsplit], rfl, hbefore, hmem, hends⟩
      · have hcount : 1 + (before ++ (line.reverse ++ ['\n'])).count '\n' =
            1 + before.count '\n' + 1 := by
          have hzero : line.count '\n' = 0 := List.count_eq_zero.2 hline
          simp [hzero]
          omega
        have hrest := ih (before ++ (line.reverse ++ ['\n'])) [] (by simp)
          (.inr (by simp [List.getLast?_append])) l (by rwa [hcount])
        simpa using hrest
    · have hnewline : '\n' ∉ c :: line := by simp [hline, Ne.symm hc]
      have hfrom : linesFrom line (c :: cs) = linesFrom (c :: line) cs := by
        rw [linesFrom]
        exact hc
      rw [hfrom] at hl
      simpa using ih before (c :: line) hnewline hbefore l hl

theorem isLine_lines (text : List Char) :
    ∀ l ∈ (lines text).zipIdx 1, IsLine text l.2 l.1 :=
  isLine_linesFrom [] [] text (by simp) (.inl rfl)

/-- Each newline ends a line, and so does the end of a text that is behind something. -/
theorem length_linesFrom (line cs : List Char) (hline : '\n' ∉ line) :
    (linesFrom line cs).length =
      cs.count '\n' + if (line.reverse ++ cs).getLast?.any (· != '\n') then 1 else 0 := by
  induction cs generalizing line with
  | nil =>
    cases line with
    | nil => rfl
    | cons c line =>
      have hc : c ≠ '\n' := fun h => hline (by simp [h])
      simp [linesFrom, List.getLast?_append, hc]
  | cons c cs ih =>
    by_cases hc : c = '\n'
    · subst hc
      rw [linesFrom, List.length_cons, ih [] (by simp)]
      cases cs with
      | nil => simp [List.getLast?_append]
      | cons d cs =>
        simp [List.getLast?_append, List.getLast?_cons]
        omega
    · have hnewline : '\n' ∉ c :: line := by simp [hline, Ne.symm hc]
      have hfrom : linesFrom line (c :: cs) = linesFrom (c :: line) cs := by
        rw [linesFrom]
        exact hc
      rw [hfrom, ih (c :: line) hnewline]
      simp [hc]

end Text

/-! ## Quoted lines -/

namespace SourceLine

theorem filter_range' (first last start n : Nat) :
    (List.range' start n).filter (fun i => decide (first ≤ i ∧ i ≤ last)) =
      List.range' (max start first) (min (start + n) (last + 1) - max start first) := by
  induction n generalizing start with
  | zero =>
    have hnone : min (start + 0) (last + 1) - max start first = 0 := by omega
    rw [hnone]
    rfl
  | succ n ih =>
    rw [List.range'_succ, List.filter_cons, ih]
    by_cases hin : first ≤ start ∧ start ≤ last
    · have hmax : max start first = start := by omega
      have hnext : max (start + 1) first = start + 1 := by omega
      have hlength : min (start + (n + 1)) (last + 1) - start =
          min (start + 1 + n) (last + 1) - (start + 1) + 1 := by omega
      rw [if_pos (by simpa using hin), hmax, hnext, hlength, List.range'_succ]
    · rw [if_neg (by simpa using hin)]
      by_cases hlast : start ≤ last
      · have hmax : max (start + 1) first = max start first := by omega
        rw [hmax, Nat.add_right_comm, Nat.add_assoc]
      · have hnone : min (start + 1 + n) (last + 1) - max (start + 1) first = 0 := by omega
        have hnone' : min (start + (n + 1)) (last + 1) - max start first = 0 := by omega
        rw [hnone, hnone']
        rfl

theorem around_number (source : String) {line : Nat} (hline : 0 < line) :
    (around source line).map SourceLine.number =
      List.range' (max 1 (line - 3))
        (min (Text.lines source.toList).length line + 1 - max 1 (line - 3)) := by
  have hmap : (around source line).map SourceLine.number =
      (((Text.lines source.toList).zipIdx 1).map Prod.snd).filter
        fun i => decide (max 1 (line - 3) ≤ i ∧ i ≤ line) := by
    rw [around, if_neg (by omega), List.filter_map, List.map_filterMap, ← List.filterMap_eq_map,
      ← List.filterMap_eq_filter, List.filterMap_filterMap]
    congr 1
    funext l
    unfold leadingLines
    generalize max 1 (line - 3) = first
    by_cases hin : first ≤ l.2 ∧ l.2 ≤ line
    · simp [hin, Option.guard]
    · simp [hin, Option.guard]
  rw [hmap, List.zipIdx_map_snd, filter_range']
  congr 1
  · omega
  · omega

theorem isLine_of_mem_around {source : String} {line : Nat} {l : SourceLine}
    (h : l ∈ around source line) : Text.IsLine source.toList l.number l.text.toList := by
  unfold around at h
  split at h
  · cases h
  · obtain ⟨⟨text, number⟩, hx, hl⟩ := List.mem_filterMap.1 h
    dsimp only at hl
    split at hl
    · cases hl
      rw [String.toList_ofList]
      exact Text.isLine_lines _ _ hx
    · cases hl

/-- The line of a position is one of the text, unless the position is behind a final newline. -/
theorem min_length_lines {text p : List Char} (hp : p <+: text) (hne : text ≠ []) :
    min (Text.lines text).length (1 + p.count '\n') =
      if p = text ∧ text.getLast? = some '\n' then p.count '\n' else 1 + p.count '\n' := by
  have hlength : (Text.lines text).length =
      text.count '\n' + if text.getLast?.any (· != '\n') then 1 else 0 :=
    Text.length_linesFrom [] text (by simp)
  obtain ⟨rest, rfl⟩ := hp
  by_cases hrest : rest = []
  · subst hrest
    rw [List.append_nil] at hlength hne ⊢
    by_cases hlast : p.getLast? = some '\n'
    · simp [hlast, hlength]
    · obtain ⟨c, hc⟩ := Option.ne_none_iff_exists'.1 (mt List.getLast?_eq_none_iff.1 hne)
      have hcn : c ≠ '\n' := fun h => hlast (by rw [hc, h])
      simp [hc, hcn, hlength]
      omega
  · have hne' : p ≠ p ++ rest := by simpa using hrest
    rw [if_neg (by simp [hrest])]
    by_cases hnewline : '\n' ∈ rest
    · have hcount : 0 < rest.count '\n' := List.count_pos_iff.2 hnewline
      rw [hlength, List.count_append]
      omega
    · obtain ⟨c, hc⟩ := Option.ne_none_iff_exists'.1 (mt List.getLast?_eq_none_iff.1 hrest)
      have hcn : c ≠ '\n' := fun h => hnewline (h ▸ List.mem_of_mem_getLast? hc)
      have hzero : rest.count '\n' = 0 := List.count_eq_zero.2 hnewline
      rw [hlength, List.count_append, List.getLast?_append, hc]
      simp [hcn, hzero]
      omega

/-- The lines quoted for the position after a prefix: up to three before it and its own. Behind a
final newline there is no line to quote, and the lines end with the one before. -/
theorem around_prefix {source : String} {p : List Char} (hp : p <+: source.toList)
    (hne : source.toList ≠ []) :
    ∃ last, (around source (1 + p.count '\n')).map SourceLine.number =
        List.range' (max 1 (1 + p.count '\n' - 3)) (last + 1 - max 1 (1 + p.count '\n' - 3)) ∧
      max 1 (1 + p.count '\n' - 3) ≤ last ∧
      last = if p = source.toList ∧ source.toList.getLast? = some '\n' then p.count '\n'
        else 1 + p.count '\n' := by
  refine ⟨_, ?_, ?_, rfl⟩
  · rw [around_number source (by omega), min_length_lines hp hne]
  · split
    · rename_i hend
      have hmem : '\n' ∈ p := hend.1 ▸ List.mem_of_mem_getLast? hend.2
      have hcount : 0 < p.count '\n' := List.count_pos_iff.2 hmem
      omega
    · omega

end SourceLine

end Stylesheet
