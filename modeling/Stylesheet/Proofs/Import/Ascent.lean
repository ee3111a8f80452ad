import Stylesheet.Import.Path
import Stylesheet.Proofs.Url.Folding

/-!
# Imports above the root

A path that is handed to a resolver never starts with a slash, but it may climb out of the root: the
path of an import that starts with a slash is taken as it is written, two dots included. Any other is
joined onto the scoped path as urls are, and this leaves no dots over.

* `Ascends`, `AscendsOnWay`: paths with a segment of two dots, and with such a segment before the last.
* `ascends_withExtension`: the extension that is added hides two dots at the end.
* `Url.FoldsDots`: all that is asked of joining here, `Url.foldsDots_join` that joining does it.
* `importPath_ascends`: the paths that climb.
-/

namespace Stylesheet

/-! ## Segments -/

/-- A segment of the path is two dots. -/
def Ascends (path : String) : Prop := ['.', '.'] ∈ Text.splitOn '/' path.toList

/-- A segment before the last one is two dots. -/
def AscendsOnWay (path : String) : Prop := ['.', '.'] ∈ (Text.splitOn '/' path.toList).dropLast

theorem Text.splitFrom_of_notMem {sep : Char} {tail : List Char} (h : sep ∉ tail) (run : List Char) :
    splitFrom sep run tail = [run.reverse ++ tail] := by
  induction tail generalizing run with
  | nil => simp [splitFrom]
  | cons c cs ih =>
    rw [List.mem_cons, not_or] at h
    rw [splitFrom, if_neg (Ne.symm h.1), ih h.2]
    simp

/-- What is put behind a text belongs to its last run. -/
theorem Text.exists_splitFrom_append {sep : Char} {tail : List Char} (h : sep ∉ tail)
    (run text : List Char) : ∃ runs last, splitFrom sep run text = runs ++ [last] ∧
      splitFrom sep run (text ++ tail) = runs ++ [last ++ tail] := by
  induction text generalizing run with
  | nil => exact ⟨[], run.reverse, rfl, splitFrom_of_notMem h run⟩
  | cons c cs ih =>
    rw [List.cons_append, splitFrom, splitFrom]
    split
    · obtain ⟨runs, last, hsplit, happend⟩ := ih []
      exact ⟨run.reverse :: runs, last, by rw [hsplit]; rfl, by rw [happend]; rfl⟩
    · exact ih (c :: run)

theorem ascendsOnWay_dropSlashes (path : String) :
    AscendsOnWay (dropSlashes path) ↔ AscendsOnWay path := by
  rw [AscendsOnWay, AscendsOnWay, dropSlashes, String.toList_ofList]
  induction path.toList with
  | nil => rfl
  | cons c cs ih =>
    by_cases hc : c = '/'
    · have hsplit : Text.splitOn '/' (c :: cs) = [] :: Text.splitOn '/' cs := if_pos hc
      have hne : Text.splitOn '/' cs ≠ [] := Text.splitFrom_ne_nil '/' [] cs
      rw [List.dropWhile_cons_of_pos (by simpa using hc), ih, hsplit,
        List.dropLast_cons_of_ne_nil hne]
      simp
    · rw [List.dropWhile_cons_of_neg (by simpa using hc)]

theorem head_dropSlashes (path : String) : (dropSlashes path).toList.head? ≠ some '/' := by
  rw [dropSlashes, String.toList_ofList]
  intro hhead
  have hnot := List.head?_dropWhile_not (· == '/') path.toList
  rw [hhead] at hnot
  simp at hnot

/-! ## Extensions -/

/-- A path with the extension that it has, or with the one that is added. -/
def withExtension (path : String) : String :=
  if hasExtension path then path else path ++ "." ++ sourceExtension

theorem getLast_ne_of_hasExtension {path : String} (h : hasExtension path = true)
    {runs : List (List Char)} {last : List Char}
    (hsplit : Text.splitOn '/' path.toList = runs ++ [last]) : last ≠ ['.', '.'] := by
  rintro rfl
  have hname : fileName? path = some ['.', '.'] := by
    rw [fileName?, hsplit, List.filter_append]
    simp
  rw [hasExtension, hname] at h
  exact absurd h (by decide)

/-- With its extension, a path climbs exactly if it does so before its last segment. -/
theorem ascends_withExtension (path : String) : Ascends (withExtension path) ↔ AscendsOnWay path := by
  have htail : '/' ∉ ('.' :: sourceExtension.toList) := by decide
  obtain ⟨runs, last, hsplit, happend⟩ := Text.exists_splitFrom_append htail [] path.toList
  have hway : AscendsOnWay path ↔ ['.', '.'] ∈ runs := by
    rw [AscendsOnWay, Text.splitOn, hsplit, List.dropLast_concat]
  rw [hway, withExtension, Ascends, Text.splitOn]
  split
  next h =>
    have hlast := getLast_ne_of_hasExtension h hsplit
    rw [hsplit, List.mem_append, List.mem_singleton]
    exact or_iff_left hlast.symm
  next =>
    have htext : (path ++ "." ++ sourceExtension).toList =
        path.toList ++ '.' :: sourceExtension.toList := by simp
    have hlast : ['.', '.'] ≠ last ++ '.' :: sourceExtension.toList := by
      intro heq
      have hlength := congrArg List.length heq
      simp [sourceExtension] at hlength
    rw [htext, happend, List.mem_append, List.mem_singleton]
    exact or_iff_left hlast

theorem head_withExtension {path : String} (h : path.toList.head? ≠ some '/') :
    (withExtension path).toList.head? ≠ some '/' := by
  unfold withExtension
  split
  · exact h
  · rw [String.toList_append, String.toList_append]
    cases hpath : path.toList with
    | nil => decide
    | cons c cs =>
      rw [hpath] at h
      simpa using h

/-! ## Joined paths -/

theorem not_ascendsOnWay_text {items : List String} (h : Url.Folded items) :
    ¬ AscendsOnWay (UrlPath.segments items).text := by
  intro hmem
  have hmem := List.dropLast_subset _ hmem
  cases items with
  | nil => exact absurd hmem (by decide)
  | cons first rest =>
    have htext : (UrlPath.segments (first :: rest)).text.toList =
        ['/'].intercalate ([] :: (first :: rest).map String.toList) := by
      rw [UrlPath.text, String.toList_append, String.toList_intercalate]
      · rfl
      · exact List.cons_ne_nil _ _
    have hundivided : ∀ piece ∈ [] :: (first :: rest).map String.toList, '/' ∉ piece := by
      intro piece hpiece
      rcases List.mem_cons.1 hpiece with rfl | hpiece
      · exact List.not_mem_nil
      · obtain ⟨segment, hsegment, rfl⟩ := List.mem_map.1 hpiece
        exact (h segment hsegment).undivided
    rw [Text.splitOn_eq, htext, List.splitOn_intercalate '/' hundivided (List.cons_ne_nil _ _)]
      at hmem
    rcases List.mem_cons.1 hmem with hnil | hmem
    · cases hnil
    · obtain ⟨segment, hsegment, hdots⟩ := List.mem_map.1 hmem
      exact (h segment hsegment).ne_above (String.toList_inj.1 hdots)

namespace Url

theorem splitScheme_of_no_colon {chars : List Char} (h : ':' ∉ chars) : splitScheme? chars = none := by
  simp only [splitScheme?]
  split
  · split
    · rename_i rest hrest
      exact absurd (List.mem_of_mem_drop (hrest ▸ List.mem_cons_self)) h
    · rfl
  · rfl

theorem clean_subset (chars : List Char) : clean chars ⊆ chars := by
  intro c hc
  have hinner := List.mem_of_mem_filter hc
  rw [List.mem_reverse] at hinner
  exact List.dropWhile_subset _ (List.mem_reverse.1 (List.dropWhile_subset _ hinner))

/-- A reference without a scheme leads to segments, unless it stays where nothing can be joined. -/
theorem join_of_no_colon {base url : Url} {reference : String} (h : ':' ∉ reference.toList)
    (hjoin : base.join reference = some url) :
    url = base ∨ ∃ items items', base.path = .segments items ∧ url.path = .segments items' := by
  simp only [join] at hjoin
  rw [splitScheme_of_no_colon fun hmem => h (clean_subset _ hmem)] at hjoin
  simp only at hjoin
  split at hjoin
  · cases hjoin
    exact .inl rfl
  · split at hjoin
    · cases hjoin
    · rename_i items hitems
      obtain ⟨path, -, rfl⟩ := Option.map_eq_some_iff.1 hjoin
      exact .inr ⟨items, path, hitems, rfl⟩

/-- Joining removes dot segments. The path of what is joined has none, and a reference without a
scheme leads to a path, unless nothing can be joined onto the url. -/
structure FoldsDots (join : Url → String → Option Url) : Prop where
  folded {base url : Url} {reference : String} (hbase : base.HasFoldedPath)
    (h : join base reference = some url) : url.HasFoldedPath
  relative {base url : Url} {reference : String} (hcolon : ':' ∉ reference.toList)
    (h : join base reference = some url) :
    url = base ∨ ∃ items items', base.path = .segments items ∧ url.path = .segments items'

theorem foldsDots_join : FoldsDots join where
  folded := HasFoldedPath.join
  relative := join_of_no_colon

theorem localRoot_hasFoldedPath : localRoot.HasFoldedPath := by
  intro items h
  cases h
  exact folded_root

end Url

/-! ## Imports -/

theorem isLocalImport_iff (url : String) : isLocalImport url = true ↔ ':' ∉ url.toList := by
  simp [isLocalImport, String.contains_char_eq]

theorem importPath_eq_some {url scopedPath path : String}
    (h : importPath? url scopedPath = some path) :
    ':' ∉ url.toList ∧ ∃ place, importPlace? url scopedPath = some place ∧
      path = withExtension (dropSlashes place) := by
  rw [importPath?] at h
  split at h
  next hlocal =>
    obtain ⟨place, hplace, hpath⟩ := Option.bind_eq_some_iff.1 h
    exact ⟨(isLocalImport_iff url).1 hlocal, place, hplace, (Option.some.inj hpath).symm⟩
  next => cases h

/-- The place of an import that is joined climbs only as the scoped path does, where nothing can be
joined onto that. -/
theorem ascendsOnWay_joined {join : Url → String → Option Url} (hjoin : Url.FoldsDots join)
    {url scopedPath : String} {base joined : Url} (hurl : ':' ∉ url.toList)
    (hbase : join localRoot (dropSlashes scopedPath) = some base)
    (hjoined : join base url = some joined) :
    AscendsOnWay joined.path.text ↔ ∃ text, base.path = .whole text ∧ AscendsOnWay text := by
  have hfolded := hjoin.folded Url.localRoot_hasFoldedPath hbase
  rcases hjoin.relative hurl hjoined with rfl | ⟨items, items', hitems, hitems'⟩
  · cases hpath : joined.path with
    | segments items =>
      refine iff_of_false (not_ascendsOnWay_text (hfolded items hpath)) ?_
      rintro ⟨text, htext, -⟩
      cases htext
    | whole text =>
      constructor
      · exact fun h => ⟨text, rfl, h⟩
      · rintro ⟨_, htext, h⟩
        cases htext
        exact h
  · rw [hitems', hitems]
    refine iff_of_false (not_ascendsOnWay_text (hjoin.folded hfolded hjoined items' hitems')) ?_
    rintro ⟨text, htext, -⟩
    cases htext

/-- The path of an import never starts with a slash. It climbs exactly if the import starts with a
slash and has two dots before its last segment, or if the scoped path is a url onto which nothing can
be joined, such as `mailto:../a/b`, and has them. -/
theorem importPath_ascends {url scopedPath path : String}
    (h : importPath? url scopedPath = some path) :
    path.toList.head? ≠ some '/' ∧
    (['.', '.'] ∈ Text.splitOn '/' path.toList ↔
      url.toList.head? = some '/' ∧ ['.', '.'] ∈ (Text.splitOn '/' url.toList).dropLast ∨
      url.toList.head? ≠ some '/' ∧ ∃ base text,
        localRoot.join (dropSlashes scopedPath) = some base ∧ base.path = .whole text ∧
        ['.', '.'] ∈ (Text.splitOn '/' text.toList).dropLast) ∧
    (url.toList.head? ≠ some '/' → ':' ∉ scopedPath.toList →
      ['.', '.'] ∉ Text.splitOn '/' path.toList) := by
  obtain ⟨hurl, place, hplace, rfl⟩ := importPath_eq_some h
  have hclimbs : Ascends (withExtension (dropSlashes place)) ↔ AscendsOnWay place :=
    (ascends_withExtension _).trans (ascendsOnWay_dropSlashes place)
  have hslash := head_withExtension (head_dropSlashes place)
  rw [importPlace?] at hplace
  split at hplace
  next hhead =>
    cases hplace
    exact ⟨hslash, hclimbs.trans (by simp [hhead, AscendsOnWay]), fun hnot => (hnot hhead).elim⟩
  next hhead =>
    obtain ⟨base, hbase, hplace⟩ := Option.bind_eq_some_iff.1 hplace
    obtain ⟨joined, hjoined, hplace⟩ := Option.bind_eq_some_iff.1 hplace
    cases hplace
    have hjoins := hclimbs.trans (ascendsOnWay_joined Url.foldsDots_join hurl hbase hjoined)
    refine ⟨hslash, hjoins.trans ?_, fun _ hscoped hmem => ?_⟩
    · simp [hhead, hbase, AscendsOnWay]
    · obtain ⟨text, htext, -⟩ := hjoins.1 hmem
      have hcolon : ':' ∉ (dropSlashes scopedPath).toList := by
        rw [dropSlashes, String.toList_ofList]
        exact fun hmem => hscoped (List.dropWhile_subset _ hmem)
      rcases Url.foldsDots_join.relative hcolon hbase with rfl | ⟨_, items, -, hitems⟩
      · cases htext
      · rw [hitems] at htext
        cases htext

/-- More places up than the scoped path has below the root. -/
theorem importPath_up_and_down :
    importPath? "../../../x/../y" "a/b" = some "y.scss" ∧
    "y.scss".toList.head? ≠ some '/' ∧ ['.', '.'] ∉ Text.splitOn '/' "y.scss".toList := by
  have hpath : importPath? "../../../x/../y" "a/b" = some "y.scss" := by
    rw [importPath?, if_pos ((isLocalImport_iff _).2 (by decide))]
    decide +kernel
  obtain ⟨hslash, -, hfolded⟩ := importPath_ascends hpath
  exact ⟨hpath, hslash, hfolded (by decide) (by decide)⟩

theorem importPath_above_root :
    importPath? "/../x.css" "" = some "../x.css" ∧
    ['.', '.'] ∈ Text.splitOn '/' "../x.css".toList := by
  refine ⟨?_, by decide⟩
  rw [importPath?, if_pos ((isLocalImport_iff _).2 (by decide))]
  decide +kernel

end Stylesheet
