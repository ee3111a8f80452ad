import Stylesheet.Proofs.Sheet.Shape
import Stylesheet.Proofs.Text.Lines

/-!
# Diagnostics of sheets

Reading a text comes to an end, with a sheet or with an error at a place of the text. Running out of
steps would be an error at no place, so that the steps a reader is given never run out.

* `locates_of_read`, `quoted_of_read`: where an error of reading is, and what it quotes.
* `read_diagnostics`: a sheet, or an error with its place and the lines up to it.
-/

namespace Stylesheet

theorem isOk_read_empty : (Sheet.read "").isOk = true := by
  decide +kernel

/-- The lines around the place of an error are added when reading ends. -/
theorem exists_locates_of_read {source : String} {e : SyntaxError}
    (h : Sheet.read source = .error e) : ∃ e' : SyntaxError, e'.Locates source.toList ∧
      e = { e' with lines := SourceLine.around source e'.position.line } := by
  have hmeets := Reading.meets_itemsFrom source
  unfold Sheet.read at h
  dsimp only at h
  split at h
  · cases h
  · rename_i e' hread
    cases h
    change Reading.itemsFrom 0 none [] _ _ = _ at hread
    rw [hread] at hmeets
    refine ⟨e', hmeets, ?_⟩
    rw [SyntaxError.withSource, hmeets.lines]
    rfl

/-- An error is at a place of the text, and quotes the lines around it. -/
theorem locates_of_read {source : String} {e : SyntaxError} (h : Sheet.read source = .error e) :
    e.position.PointsInto source.toList ∧ e.lines = SourceLine.around source e.position.line := by
  obtain ⟨e', hlocates, rfl⟩ := exists_locates_of_read h
  exact ⟨hlocates.position, rfl⟩

/-- Apart from lines, an error quotes parts of the text. -/
theorem quoted_of_read {source : String} {e : SyntaxError} (h : Sheet.read source = .error e) :
    Pieced source.toList e.fault.quoted.toList := by
  obtain ⟨e', hlocates, rfl⟩ := exists_locates_of_read h
  exact hlocates.quoted

theorem read_diagnostics (source : String) :
    (∃ sheet, Sheet.read source = .ok sheet) ∨
    ∃ e p last, Sheet.read source = .error e ∧ p <+: source.toList ∧
      e.position.line = 1 + p.count '\n' ∧
      e.position.column = 1 + (p.rtakeWhile (· != '\n')).length ∧
      e.lines ≠ [] ∧
      e.lines.map SourceLine.number =
        List.range' (max 1 (e.position.line - 3)) (last + 1 - max 1 (e.position.line - 3)) ∧
      (last = if p = source.toList ∧ source.toList.getLast? = some '\n' then e.position.line - 1
        else e.position.line) ∧
      ∀ line ∈ e.lines, Text.IsLine source.toList line.number line.text.toList := by
  cases h : Sheet.read source with
  | ok sheet => exact .inl ⟨sheet, rfl⟩
  | error e =>
    right
    obtain ⟨⟨p, hp, hposition⟩, hlines⟩ := locates_of_read h
    rw [Position.advance_start] at hposition
    have hline : e.position.line = 1 + p.count '\n' := by rw [hposition]
    have hne : source.toList ≠ [] := by
      intro hnil
      obtain rfl : source = "" := String.toList_eq_nil_iff.1 hnil
      have hok := isOk_read_empty
      rw [h] at hok
      cases hok
    obtain ⟨last, hnumbers, hle, hlast⟩ := SourceLine.around_prefix hp hne
    rw [← hline, ← hlines] at hnumbers
    rw [← hline] at hle
    refine ⟨e, p, last, rfl, hp, hline, by rw [hposition], ?_, hnumbers, ?_, ?_⟩
    · intro hnil
      have hlength := congrArg List.length hnumbers
      rw [hnil, List.map_nil, List.length_nil, List.length_range'] at hlength
      omega
    · rw [hlast, hline, Nat.add_sub_cancel_left]
    · intro line hmem
      rw [hlines] at hmem
      exact SourceLine.isLine_of_mem_around hmem

end Stylesheet
