import Mathlib.Algebra.Order.Ring.Nat
import Stylesheet.Document
import Stylesheet.Proofs.Sheet.Diagnostics

/-!
# Failed imports

What stands in the place of a document that cannot be read is a comment with a diagnostic in it. The
diagnostic quotes lines of the document as they are, so that a line with the end of a comment ends the
comment around it too, and what follows is no comment any more.

* `closings`: how often a text closes a comment.
* `closings_importFailure`: what closes the comment of a failed import.
* `importFailure_closes_once`: when only its end does.
-/

namespace Stylesheet

/-! ## Ends of comments -/

/-- How often a star stands before a slash. -/
def closings : List Char → Nat
  | [] => 0
  | c :: cs => closings cs + if c = '*' ∧ cs.head? = some '/' then 1 else 0

/-- Nothing is closed across the border of two texts, unless it parts a star from a slash. -/
theorem closings_append {l m : List Char} (h : l.getLast? = some '*' → m.head? ≠ some '/') :
    closings (l ++ m) = closings l + closings m := by
  induction l with
  | nil => simp [closings]
  | cons c l ih =>
    cases l with
    | nil =>
      have hc : ¬ (c = '*' ∧ m.head? = some '/') := fun ⟨hstar, hslash⟩ => h (by simp [hstar]) hslash
      simp [closings, hc]
    | cons d l =>
      have hrest := ih fun hlast => h (by simpa [List.getLast?_cons] using hlast)
      show closings (d :: l ++ m) + (if c = '*' ∧ some d = some '/' then 1 else 0) =
        closings (d :: l) + (if c = '*' ∧ some d = some '/' then 1 else 0) + closings m
      rw [hrest, Nat.add_right_comm]

theorem closings_append_of_head {l m : List Char} (h : m.head? ≠ some '/') :
    closings (l ++ m) = closings l + closings m := closings_append fun _ => h

theorem closings_append_of_last {l m : List Char} {c : Char} (h : l.getLast? = some c)
    (hc : c ≠ '*') : closings (l ++ m) = closings l + closings m := by
  refine closings_append fun hstar => ?_
  rw [h] at hstar
  exact absurd (Option.some.inj hstar) hc

theorem closings_eq_zero_iff (text : List Char) : closings text = 0 ↔ ¬ ['*', '/'] <:+: text := by
  induction text with
  | nil => simp [closings]
  | cons c cs ih =>
    have hstart : ['*', '/'] <+: c :: cs ↔ c = '*' ∧ cs.head? = some '/' := by
      cases cs with
      | nil => simp
      | cons d cs => simp [List.cons_prefix_cons, eq_comm]
    rw [List.infix_cons_iff, hstart, not_or, ← ih, closings]
    split
    next h => simp [h]
    next h => simp [h]

theorem closings_of_star_notMem {text : List Char} (h : '*' ∉ text) : closings text = 0 := by
  rw [closings_eq_zero_iff]
  exact fun hpair => h (hpair.subset List.mem_cons_self)

/-! ## Diagnostics -/

/-- What stands between quotes closes what it would close alone. -/
theorem closings_between {before text : String} (h : before.toList.getLast? = some '\'') :
    closings (before ++ text ++ "'").toList = closings before.toList + closings text.toList := by
  rw [String.toList_append, String.toList_append, closings_append_of_head (by decide),
    closings_append_of_last h (by decide)]
  rfl

theorem star_notMem_construct (reading : Construct) : '*' ∉ reading.text.toList := by
  cases reading <;> decide

/-- A message closes nothing but what the text that it quotes does. -/
theorem closings_message (fault : SyntaxFault) :
    closings fault.message.toList = closings fault.quoted.toList := by
  cases fault with
  | unterminatedComment | unterminatedString | unterminatedUrl | unclosedBlock | missingSelector
  | declarationOutsideRule | elseWithoutIf => decide +kernel
  | unbalanced opening =>
    show closings ("Unbalanced '" ++ opening.toString ++ "'").toList = closings "".toList
    rw [closings_between (by decide)]
    simp [closings]
  | strayClosing closing =>
    show closings ("Unexpected '" ++ closing.toString ++ "' in selector").toList = closings "".toList
    rw [String.toList_append, closings_append_of_head (by decide)]
    simp [closings]
  | unexpectedToken reading text =>
    have hstar : '*' ∉ ("Unexpected token reading " ++ reading.text ++ ". Was '").toList := by
      simp [star_notMem_construct]
    have hlast : ("Unexpected token reading " ++ reading.text ++ ". Was '").toList.getLast? =
        some '\'' := by
      rw [String.toList_append, List.getLast?_append]
      rfl
    show closings ("Unexpected token reading " ++ reading.text ++ ". Was '" ++ text ++ "'").toList = _
    rw [closings_between hlast, closings_of_star_notMem hstar, Nat.zero_add]
    rfl
  | unexpectedEnd reading =>
    show closings ("Unexpected EOF reading '" ++ reading.text ++ "'").toList = closings "".toList
    rw [closings_between (by decide), closings_of_star_notMem (star_notMem_construct reading)]
    decide +kernel
  | missingValue name =>
    show closings ("Missing value for '" ++ name ++ "'").toList = closings name.toList
    rw [closings_between (by decide)]
    simp [closings]
  | invalidNumber text =>
    show closings ("Invalid number '" ++ text ++ "'").toList = closings text.toList
    rw [closings_between (by decide)]
    simp [closings]

/-- The number of a line, in front of which only blanks may stand. -/
theorem star_notMem_lineNumberText (n : Nat) : '*' ∉ (lineNumberText n).toList := by
  intro hstar
  rw [lineNumberText, String.toList_ofList, List.mem_append] at hstar
  rcases hstar with hblank | hdigit
  · cases List.eq_of_mem_replicate hblank
  · cases Nat.isDigit_of_mem_toDigits (by decide) (by decide) hdigit

theorem closings_quotedLine (position : Position) (line : SourceLine) :
    closings (quotedLine position line).toList = closings line.text.toList := by
  have hstar : '*' ∉ ("\n" ++ lineNumberText line.number ++ ". ").toList := by
    simp [star_notMem_lineNumberText]
  have hlast : ("\n" ++ lineNumberText line.number ++ ". ").toList.getLast? = some ' ' := by
    rw [String.toList_append, List.getLast?_append]
    rfl
  rw [quotedLine, String.toList_append, String.toList_append]
  split
  · have hmarked : (("\n" ++ lineNumberText line.number ++ ". ").toList ++ "* ".toList).getLast? =
        some ' ' := by
      rw [List.getLast?_append]
      rfl
    rw [closings_append_of_last hmarked (by decide), closings_append_of_last hlast (by decide),
      closings_of_star_notMem hstar]
    simp [closings]
  · rw [String.toList_empty, List.append_nil, closings_append_of_last hlast (by decide),
      closings_of_star_notMem hstar, Nat.zero_add]

/-- Each line is quoted behind a newline. -/
theorem head_quotedLines (position : Position) (lines : List SourceLine) :
    (String.join (lines.map (quotedLine position))).toList.head? ≠ some '/' := by
  cases lines with
  | nil => simp
  | cons line lines => simp [quotedLine]

theorem closings_quotedLines (position : Position) (lines : List SourceLine) :
    closings (String.join (lines.map (quotedLine position))).toList =
      (lines.map fun line => closings line.text.toList).sum := by
  induction lines with
  | nil => rfl
  | cons line lines ih =>
    rw [List.map_cons, String.join_cons, String.toList_append,
      closings_append_of_head (head_quotedLines position lines), closings_quotedLine, ih,
      List.map_cons, List.sum_cons]

theorem closings_report (e : SyntaxError) :
    closings (CompileError.report (.malformed e)).toList =
      closings e.fault.quoted.toList + (e.lines.map fun line => closings line.text.toList).sum := by
  rw [CompileError.report, String.toList_append,
    closings_append_of_head (head_quotedLines e.position e.lines), closings_message,
    closings_quotedLines]

/-! ## Failed imports -/

/-- The comment of a failed import is closed at its end, and wherever the diagnostic quotes the end of
a comment. -/
theorem closings_importFailure {path : String} (hpath : ¬ ['*', '/'] <:+: path.toList)
    (e : SyntaxError) : closings (importFailure path (.malformed e)).toList =
      1 + closings e.fault.quoted.toList +
        (e.lines.map fun line => closings line.text.toList).sum := by
  have hopening : closings (blankingRules ++ "\n/*").toList = 0 := by decide +kernel
  have hquoted : closings (" --- Parse Error in '" ++ path ++ "' : ").toList = 0 := by
    rw [String.toList_append, closings_append_of_head (by decide), String.toList_append,
      closings_append_of_last (c := '\'') (by decide) (by decide),
      (closings_eq_zero_iff _).2 hpath]
    decide
  have hcolon : (" --- Parse Error in '" ++ path ++ "' : ").toList.getLast? = some ' ' := by
    rw [String.toList_append, List.getLast?_append]
    rfl
  have hinside : (" --- Parse Error in '" ++ path ++ "' : " ++ CompileError.report (.malformed e) ++
      "\n").toList.head? ≠ some '/' := by
    simp
  have hnewline : closings "\n".toList = 0 := by decide
  have hend : closings "*/".toList = 1 := by decide
  rw [importFailure_eq, String.toList_append, closings_append_of_head (by decide),
    String.toList_append, closings_append_of_head hinside, hopening, String.toList_append,
    closings_append_of_head (by decide), String.toList_append,
    closings_append_of_last hcolon (by decide), hquoted, closings_report]
  omega

/-- The comment of an import that could not be read is closed once if nothing that the diagnostic
quotes closes it. What it quotes are parts and lines of the document, so that a document without the
end of a comment never closes it. -/
theorem importFailure_closes_once {path source : String} {e : SyntaxError}
    (hpath : ¬ ['*', '/'] <:+: path.toList) (h : Sheet.read source = .error e) :
    (∃ inside, importFailure path (.malformed e) = blankingRules ++ "\n/*" ++ inside ++ "*/") ∧
    closings (importFailure path (.malformed e)).toList =
      1 + closings e.fault.quoted.toList +
        (e.lines.map fun line => closings line.text.toList).sum ∧
    (closings (importFailure path (.malformed e)).toList = 1 ↔
      ¬ ['*', '/'] <:+: e.fault.quoted.toList ∧
        ∀ line ∈ e.lines, ¬ ['*', '/'] <:+: line.text.toList) ∧
    (∀ line ∈ e.lines, Text.IsLine source.toList line.number line.text.toList) ∧
    (¬ ['*', '/'] <:+: source.toList →
      closings (importFailure path (.malformed e)).toList = 1) := by
  have hcount := closings_importFailure hpath e
  have honce : closings (importFailure path (.malformed e)).toList = 1 ↔
      ¬ ['*', '/'] <:+: e.fault.quoted.toList ∧
        ∀ line ∈ e.lines, ¬ ['*', '/'] <:+: line.text.toList := by
    have hsum : (e.lines.map fun line => closings line.text.toList).sum = 0 ↔
        ∀ line ∈ e.lines, ¬ ['*', '/'] <:+: line.text.toList := by
      simp [List.sum_eq_zero_iff_forall_eq_nat, closings_eq_zero_iff]
    rw [hcount, ← hsum, ← closings_eq_zero_iff]
    omega
  have hlines (line : SourceLine) (hline : line ∈ e.lines) :
      Text.IsLine source.toList line.number line.text.toList := by
    rw [(locates_of_read h).2] at hline
    exact SourceLine.isLine_of_mem_around hline
  refine ⟨⟨_, importFailure_eq path _⟩, hcount, honce, hlines, fun hsource => ?_⟩
  refine honce.2 ⟨fun hquoted => ?_, fun line hline hin => ?_⟩
  · exact hsource ((quoted_of_read h).closing_of_closing hquoted)
  · obtain ⟨before, after, hsplit, -⟩ := hlines line hline
    rw [hsplit] at hsource
    exact hsource (hin.trans ⟨before, after, by simp⟩)

/-- The error that a text is read with. -/
def readError? (source : String) : Option SyntaxError :=
  match Sheet.read source with
  | .error e => some e
  | .ok _ => none

theorem read_of_readError? {source : String} (h : (readError? source).isSome = true) :
    ∃ e, Sheet.read source = .error e := by
  unfold readError? at h
  split at h
  · exact ⟨_, ‹_›⟩
  · cases h

/-- A star and a slash on two lines that are quoted one after the other. -/
theorem importFailure_closes_once_apart : ∃ e, Sheet.read "a *\n/ b" = .error e ∧
    ¬ ['*', '/'] <:+: "p.scss".toList ∧ ¬ ['*', '/'] <:+: "a *\n/ b".toList ∧
    closings (importFailure "p.scss" (.malformed e)).toList = 1 := by
  obtain ⟨e, he⟩ : ∃ e, Sheet.read "a *\n/ b" = .error e := read_of_readError? (by decide +kernel)
  have hpath : ¬ ['*', '/'] <:+: "p.scss".toList :=
    (closings_eq_zero_iff _).1 (by decide)
  have hsource : ¬ ['*', '/'] <:+: "a *\n/ b".toList :=
    (closings_eq_zero_iff _).1 (by decide)
  obtain ⟨-, -, -, -, honce⟩ := importFailure_closes_once hpath he
  exact ⟨e, he, hpath, hsource, honce hsource⟩

/-- A comment before the error ends the comment in which the line is quoted, and the rule behind it is
written to the page. -/
theorem importFailure_broken_out :
    (readError? "/* */b\x7b\x7d\x7d").map (fun e => importFailure "p.scss" (.malformed e)) =
      some ("\nbody, html \x7b background-color: red !important; \x7d" ++
        "\nbody * \x7b display: none; \x7d" ++
        "\n/* --- Parse Error in 'p.scss' : Unexpected token reading stylesheet. Was '\x7d'" ++
        "\n   1. * /* */b\x7b\x7d\x7d" ++ "\n*/") ∧
    ((readError? "/* */b\x7b\x7d\x7d").map fun e =>
      closings (importFailure "p.scss" (.malformed e)).toList) = some 2 := by
  constructor
  · decide +kernel
  · decide +kernel

end Stylesheet
