import Mathlib
import Stylesheet.Url.Join

/-!
# Folded paths

Dot segments are folded away while a path is read, so that no segment of the path of a url names the
place above. A segment may be continued after it was read, but only while it is empty or a drive, and
so two dots are never put together from one and one.

* `Text.splitOn_eq`: texts are split as lists are.
* `Url.IsPlain`, `Url.Folded`: segments and paths that name no place above.
* `Url.IsOpen`: paths whose last segment can be continued.
* `Url.folded_readPath`: paths that are read.
* `Url.HasFoldedPath.join`: the paths of urls that are joined.
-/

namespace Stylesheet

/-! ## Splitting -/

namespace Text

theorem splitFrom_eq (sep : Char) (run text : List Char) :
    splitFrom sep run text = text.splitOnPPrepend (· == sep) run := by
  induction text generalizing run with
  | nil => rfl
  | cons c cs ih =>
    rw [splitFrom, List.splitOnPPrepend_cons_eq_if, ih, ih]
    simp

theorem splitOn_eq (sep : Char) (text : List Char) : splitOn sep text = text.splitOn sep :=
  splitFrom_eq sep [] text

theorem notMem_of_mem_splitFrom {sep : Char} {run text piece : List Char} (hrun : sep ∉ run)
    (h : piece ∈ splitFrom sep run text) : sep ∉ piece := by
  induction text generalizing run with
  | nil =>
    rw [splitFrom, List.mem_singleton] at h
    simpa [h] using hrun
  | cons c cs ih =>
    rw [splitFrom] at h
    split at h
    · rcases List.mem_cons.1 h with rfl | h
      · simpa using hrun
      · exact ih List.not_mem_nil h
    · rename_i hc
      exact ih (by simp [hrun, Ne.symm hc]) h

end Text

namespace Url

/-! ## Segments -/

/-- A segment that does not name the place above, and that no slash divides. -/
structure IsPlain (segment : String) : Prop where
  ne_above : segment ≠ ".."
  undivided : '/' ∉ segment.toList

/-- A path that names no place above. -/
def Folded (path : List String) : Prop := ∀ segment ∈ path, IsPlain segment

/-- Nothing that is put behind the last segment makes two dots of it. -/
def IsOpen (path : List String) : Prop := ∀ last ∈ path.getLast?, last = "" ∨ isNamedDrive last = true

theorem isPlain_empty : IsPlain "" := ⟨by decide, by decide⟩

theorem folded_root : Folded [""] := by
  simp [Folded, isPlain_empty]

theorem isOpen_root : IsOpen [""] := by
  simp [IsOpen]

theorem Folded.openSegment {path : List String} (h : Folded path) : Folded (openSegment path) := by
  intro segment hsegment
  rcases List.mem_append.1 hsegment with hmem | hmem
  · exact h segment hmem
  · rw [List.mem_singleton.1 hmem]
    exact isPlain_empty

theorem isOpen_openSegment (path : List String) : IsOpen (openSegment path) := by
  simp [IsOpen, Url.openSegment]

theorem isOpen_of_endsInSlash {path : List String} (h : endsInSlash path = true) : IsOpen path := by
  have hlast : path.getLast? = some "" := by simpa [endsInSlash] using h
  simp [IsOpen, hlast]

theorem Folded.of_subset {path path' : List String} (h : Folded path) (hsub : path' ⊆ path) :
    Folded path' := fun segment hsegment => h segment (hsub hsegment)

theorem Folded.shorten {path : List String} (h : Folded path) (kind : SchemeKind) :
    Folded (shorten kind path) := by
  unfold Url.shorten
  split
  · exact h
  · exact (h.of_subset (List.dropLast_subset path)).openSegment

theorem isOpen_shorten (kind : SchemeKind) (path : List String) : IsOpen (shorten kind path) := by
  unfold shorten
  split
  next hkept =>
    intro last hlast
    rcases hkept with hempty | ⟨-, hdrive⟩
    · rw [List.isEmpty_iff.1 hempty] at hlast
      cases hlast
    · rw [Option.mem_def.1 hlast] at hdrive
      exact .inr hdrive
  next => exact isOpen_openSegment _

theorem Folded.goUp {path : List String} (h : Folded path) (kind : SchemeKind) :
    Folded (goUp kind path) := by
  unfold Url.goUp
  split
  next last above hreverse =>
    have hpath : path = above.reverse ++ [last, ""] := by
      rw [← path.reverse_reverse, hreverse]
      simp
    split
    · exact h.shorten kind
    · refine (h.of_subset ?_).shorten kind
      rw [hpath]
      simp
  next => exact h.shorten kind

/-- A drive starts with a letter. -/
theorem isPlain_append_of_isNamedDrive {drive text : String} (hdrive : isNamedDrive drive = true)
    (hplain : IsPlain drive) (htext : '/' ∉ text.toList) : IsPlain (drive ++ text) := by
  refine ⟨fun h => ?_, ?_⟩
  · unfold isNamedDrive at hdrive
    split at hdrive
    next c d hchars =>
      have hlist := congrArg String.toList h
      rw [String.toList_append, hchars] at hlist
      have hc : c = '.' := (List.cons.inj hlist).1
      rw [hc] at hdrive
      exact absurd hdrive (by simp [show Char.isAlpha '.' = false from rfl])
    next => cases hdrive
  · rw [String.toList_append, List.mem_append, not_or]
    exact ⟨hplain.undivided, htext⟩

theorem Folded.extend {path : List String} {text : String} (h : Folded path) (hopen : IsOpen path)
    (htext : IsPlain text) : Folded (extend path text) := by
  unfold Url.extend
  split
  · split
    · simp [Folded]
    · simpa [Folded] using htext
  · rename_i last hlast
    intro segment hsegment
    rcases List.mem_append.1 hsegment with hmem | hmem
    · exact h segment (List.dropLast_subset path hmem)
    · rw [List.mem_singleton.1 hmem]
      rcases hopen last hlast with rfl | hdrive
      · rwa [String.empty_append]
      · exact isPlain_append_of_isNamedDrive hdrive (h last (List.mem_of_getLast? hlast))
          htext.undivided

/-! ## Reading -/

/-- The path that a segment is added to. A segment after a drive alone is divided from it. -/
def divideDrive (kind : SchemeKind) (path : List String) (segment : String) : List String :=
  match kind, path with
  | .file, [drive] => if !segment.isEmpty && isNamedDrive drive then [drive, ""] else [drive]
  | _, path => path

theorem folded_divideDrive {path : List String} (h : Folded path) (hopen : IsOpen path)
    (kind : SchemeKind) (segment : String) :
    Folded (divideDrive kind path segment) ∧ IsOpen (divideDrive kind path segment) := by
  unfold divideDrive
  split
  · split
    · exact ⟨h.openSegment, isOpen_openSegment [_]⟩
    · exact ⟨h, hopen⟩
  · exact ⟨h, hopen⟩

theorem isDoubleDot_above : isDoubleDot ".." = true := by decide +kernel

/-- What a segment is written as, if it is no dot segment. -/
theorem isPlain_written {segment : String} (habove : isDoubleDot segment = false)
    (hsegment : '/' ∉ segment.toList) (isFirst : Prop) [Decidable isFirst] :
    IsPlain (if isFirst then driveName segment else segment) := by
  split
  · refine ⟨fun h => ?_, ?_⟩
    · have hcolon : ':' ∈ (driveName segment).toList := by simp [driveName]
      rw [h] at hcolon
      exact absurd hcolon (by decide)
    · rw [driveName, String.toList_ofList, List.mem_append, not_or]
      exact ⟨fun hmem => hsegment (List.mem_of_mem_take hmem), by decide⟩
  · refine ⟨fun h => ?_, hsegment⟩
    rw [h, isDoubleDot_above] at habove
    cases habove

/-- Reads one segment onto a path that is divided from it. -/
def addDivided (kind : SchemeKind) (path : List String) (segment : String) (more : Bool) :
    List String :=
  if isDoubleDot segment then
    if more && !endsInSlash (goUp kind path) then openSegment (goUp kind path) else goUp kind path
  else if isDot segment then
    if endsInSlash path then path else openSegment path
  else
    let added := extend path
      (if (kind = .file ∧ path = [""]) ∧ isDrive segment then driveName segment else segment)
    if more then openSegment added else added

theorem addSegment_eq (kind : SchemeKind) (path : List String) (segment : String) (more : Bool) :
    addSegment kind path segment more =
      addDivided kind (divideDrive kind path segment) segment more := rfl

theorem folded_addSegment {path : List String} {segment : String} (h : Folded path)
    (hopen : IsOpen path) (hsegment : '/' ∉ segment.toList) (kind : SchemeKind) (more : Bool) :
    Folded (addSegment kind path segment more) ∧
      (more = true → IsOpen (addSegment kind path segment more)) := by
  obtain ⟨h, hopen⟩ := folded_divideDrive h hopen kind segment
  rw [addSegment_eq]
  generalize divideDrive kind path segment = path at h hopen
  unfold addDivided
  split
  next =>
    split
    next => exact ⟨(h.goUp kind).openSegment, fun _ => isOpen_openSegment _⟩
    next hslash =>
      refine ⟨h.goUp kind, fun hmore => isOpen_of_endsInSlash ?_⟩
      simpa [hmore] using hslash
  next habove =>
    split
    next =>
      split
      next hslash => exact ⟨h, fun _ => isOpen_of_endsInSlash hslash⟩
      next => exact ⟨h.openSegment, fun _ => isOpen_openSegment _⟩
    next =>
      have hextended := h.extend hopen (isPlain_written (eq_false_of_ne_true habove) hsegment
        ((kind = .file ∧ path = [""]) ∧ isDrive segment = true))
      cases more with
      | true => exact ⟨hextended.openSegment, fun _ => isOpen_openSegment _⟩
      | false => exact ⟨hextended, fun hmore => (Bool.false_ne_true hmore).elim⟩

theorem folded_addSegments {kind : SchemeKind} {path segments : List String} (h : Folded path)
    (hopen : IsOpen path) (hsegments : ∀ segment ∈ segments, '/' ∉ segment.toList) :
    Folded (addSegments kind path segments) := by
  fun_induction addSegments kind path segments with
  | case1 path => exact h
  | case2 path segment =>
    exact (folded_addSegment h hopen (hsegments segment List.mem_cons_self) kind false).1
  | case3 path segment rest _ ih =>
    obtain ⟨hfolded, hopen⟩ :=
      folded_addSegment h hopen (hsegments segment List.mem_cons_self) kind true
    exact ih hfolded (hopen rfl) fun s hs => hsegments s (List.mem_cons_of_mem segment hs)

theorem toUpper_digit_ne_slash : ∀ n < 16, (Hexadecimal.digit n).toUpper ≠ '/' := by decide

theorem slash_notMem_percentEncode (c : Char) : '/' ∉ percentEncode c := by
  rw [percentEncode, List.mem_flatMap]
  rintro ⟨byte, -, hmem⟩
  have hbyte : byte.toNat < 256 := byte.toNat_lt
  rcases List.mem_cons.1 hmem with hpercent | hmem
  · exact absurd hpercent (by decide)
  · simp only [Hexadecimal.byteText, String.toUpper, String.toList_map, String.toList_ofList,
      List.map_cons, List.map_nil, List.mem_cons, List.not_mem_nil, or_false] at hmem
    rcases hmem with h | h
    · exact toUpper_digit_ne_slash _ (by omega) h.symm
    · exact toUpper_digit_ne_slash _ (by omega) h.symm

theorem slash_notMem_encode {encoded : Char → Bool} {chars : List Char} (h : '/' ∉ chars) :
    '/' ∉ (encode encoded chars).toList := by
  rw [encode, String.toList_ofList, List.mem_flatMap]
  rintro ⟨c, hc, hmem⟩
  split at hmem
  · exact slash_notMem_percentEncode c hmem
  · rw [List.mem_singleton.1 hmem] at h
    exact h hc

theorem slash_notMem_segmentsOf {kind : SchemeKind} {chars : List Char} {segment : String}
    (h : segment ∈ segmentsOf kind chars) : '/' ∉ segment.toList := by
  obtain ⟨piece, hpiece, rfl⟩ := List.mem_map.1 h
  exact slash_notMem_encode (Text.notMem_of_mem_splitFrom List.not_mem_nil hpiece)

theorem Folded.dropEmpty {path : List String} (h : Folded path) : Folded (dropEmpty path) := by
  unfold Url.dropEmpty
  split
  · exact folded_root
  · exact h.of_subset (List.dropWhile_subset _)

theorem folded_readPath {kind : SchemeKind} {path : List String} (h : Folded path)
    (hopen : IsOpen path) (chars : List Char) : Folded (readPath kind path chars) := by
  have hadded : Folded (addSegments kind path (segmentsOf kind chars)) :=
    folded_addSegments h hopen fun _ => slash_notMem_segmentsOf
  unfold readPath
  split
  · exact hadded.dropEmpty
  · exact hadded

/-! ## Joining -/

theorem folded_readPath_root (kind : SchemeKind) (chars : List Char) :
    Folded (readPath kind [""] chars) := folded_readPath folded_root isOpen_root chars

theorem folded_pathAfter (kind : SchemeKind) (chars : List Char) :
    Folded (Authority.pathAfter kind chars) := by
  have hnone : Folded (if kind = .other then [] else [""]) := by
    split
    · simp [Folded]
    · exact folded_root
  cases chars with
  | nil => exact hnone
  | cons c rest =>
    simp only [Authority.pathAfter]
    split
    · exact hnone
    · split
      · exact folded_readPath_root kind rest
      · exact folded_readPath_root kind (c :: rest)

theorem folded_authority {kind : SchemeKind} {chars : List Char} {path : List String}
    (h : Authority.read? kind chars = some path) : Folded path := by
  obtain ⟨rest, -, h⟩ := Option.bind_eq_some_iff.1 h
  split at h
  · cases h
    exact folded_pathAfter kind rest
  · cases h

theorem folded_joinRelative {kind : SchemeKind} {base path : List String} {chars : List Char}
    (hbase : Folded base) (h : joinRelative? kind base chars = some path) : Folded path := by
  simp only [joinRelative?] at h
  split at h
  · cases h
    exact hbase
  · rename_i c rest
    split at h
    · cases h
      exact hbase
    · split at h
      · split at h
        · exact folded_authority h
        · cases h
          exact folded_readPath_root kind rest
      · cases h
        split
        · exact folded_readPath_root kind _
        · exact folded_readPath (hbase.shorten kind) (isOpen_shorten kind base) _

theorem folded_fileAfterSlashes {chars : List Char} {path : List String}
    (h : fileAfterSlashes? chars = some path) : Folded path := by
  simp only [fileAfterSlashes?] at h
  split at h
  · cases h
    exact folded_readPath_root .file _
  · split at h
    · cases h
      exact folded_readPath_root .file _
    · obtain ⟨host, -, h⟩ := Option.bind_eq_some_iff.1 h
      split at h
      · cases h
        exact folded_readPath_root .file _
      · cases h
        exact folded_pathAfter .file _

/-- The drive of a path, with nothing behind it. -/
theorem folded_drive {base : Option (List String)} (hbase : ∀ path ∈ base, Folded path) :
    Folded (base.bind drive?).toList ∧ IsOpen (base.bind drive?).toList := by
  cases hdrive : base.bind drive? with
  | none => simp [Folded, IsOpen]
  | some drive =>
    obtain ⟨path, hpath, hdrive⟩ := Option.bind_eq_some_iff.1 hdrive
    obtain ⟨hhead, hnamed⟩ := Option.filter_eq_some_iff.1 hdrive
    have hplain := hbase path hpath drive (List.mem_of_head? hhead)
    refine ⟨?_, ?_⟩
    · simpa [Folded] using hplain
    · simp [IsOpen, hnamed]

theorem folded_joinFile {base : Option (List String)} {chars : List Char} {path : List String}
    (hbase : ∀ path ∈ base, Folded path) (h : joinFile? base chars = some path) : Folded path := by
  obtain ⟨hdrive, hopen⟩ := folded_drive hbase
  simp only [joinFile?] at h
  split at h
  · cases h
    cases base with
    | none => exact folded_root
    | some items => exact hbase items rfl
  · rename_i c rest
    split at h
    · split at h
      · split at h
        · exact folded_fileAfterSlashes h
        · cases h
          split
          · exact folded_readPath (by simp [Folded]) (by simp [IsOpen]) _
          · exact folded_readPath hdrive hopen _
      · cases h
        exact folded_readPath hdrive hopen _
    · split at h
      · cases h
        exact folded_readPath_root .file _
      · rename_i items
        have hitems := hbase items rfl
        split at h
        · cases h
          exact hitems
        · split at h
          · cases h
            exact folded_readPath_root .file _
          · cases h
            exact folded_readPath (hitems.shorten .file) (isOpen_shorten .file items) _

/-- A url without dot segments, unless nothing can be joined onto it. -/
def HasFoldedPath (url : Url) : Prop := ∀ items, url.path = .segments items → Folded items

theorem folded_joinAbsolute {base : Url} {scheme : String} {chars : List Char} {path : List String}
    (hbase : base.HasFoldedPath) (h : joinAbsolute? base scheme chars = some (.segments path)) :
    Folded path := by
  have hsegments {o : Option (List String)} (ho : ∀ items, o = some items → Folded items)
      (h : o.map UrlPath.segments = some (.segments path)) : Folded path := by
    obtain ⟨items, hitems, heq⟩ := Option.map_eq_some_iff.1 h
    cases heq
    exact ho _ hitems
  unfold joinAbsolute? at h
  extract_lets same at h
  have hsame : ∀ items ∈ same, Folded items := by
    intro items hitems
    simp only [same] at hitems
    split at hitems
    next items' hpath =>
      split at hitems
      · cases hitems
        exact hbase _ hpath
      · cases hitems
    next => cases hitems
  clear_value same
  split at h
  next => exact hsegments (fun _ => folded_joinFile hsame) h
  next =>
    split at h
    next items =>
      split at h
      · exact hsegments (fun _ => folded_joinRelative (hsame items rfl)) h
      · exact hsegments (fun _ => folded_authority) h
    next => exact hsegments (fun _ => folded_authority) h
  next =>
    split at h
    · exact hsegments (fun _ => folded_authority) h
    · cases h
      exact folded_readPath_root .other _
    · cases h

/-- Whatever is joined onto a url without dot segments gives another one. -/
theorem HasFoldedPath.join {base url : Url} {reference : String} (hbase : base.HasFoldedPath)
    (h : base.join reference = some url) : url.HasFoldedPath := by
  simp only [Url.join] at h
  split at h
  next scheme rest _ =>
    obtain ⟨path, hpath, rfl⟩ := Option.map_eq_some_iff.1 h
    rintro items rfl
    exact folded_joinAbsolute hbase hpath
  next =>
    split at h
    · cases h
      exact hbase
    · split at h
      · cases h
      · rename_i items hitems
        obtain ⟨path, hpath, rfl⟩ := Option.map_eq_some_iff.1 h
        intro _ heq
        cases heq
        split at hpath
        · exact folded_joinFile (fun _ hmem => by cases hmem; exact hbase items hitems) hpath
        · exact folded_joinRelative (hbase items hitems) hpath

end Url

end Stylesheet
