import Stylesheet.Proofs.Value.Extension
import Stylesheet.Proofs.Value.RoundTrip
import Stylesheet.Scope
import Stylesheet.Sheet.Reader

/-!
# The mark of a default

The mark of a default is read as one more word of the value before it, and it is split off again if
the value is a space list then. In a value with a comma outside of parentheses and interpolations the
word goes to the last group, where it is not looked for: such an assignment is no default, and its
value keeps the word.

* `isVariableName`: the texts that are names of variables.
* `Value.EndsMarked`: a value with the mark as its last word.
* `Reading.runs_valueList_marked`: a value is read with the mark behind it.
* `Reading.runs_assignment_marked`, `Reading.splitDefault_of_endsMarked`: the assignment.
* `assignment_of_read`: what a statement with a mark is read as, and what it does to a scope.
-/

namespace Stylesheet

open Lexeme

/-! ## Names of variables -/

def isVariableName (name : String) : Bool :=
  !name.toList.isEmpty && nameLength 0 name.toList == name.toList.length &&
    !openEscape name.toList

theorem cut_variable {name : String} (h : isVariableName name = true) (rest : List Char) :
    Cut .block .reference ('$' :: name.toList) (':' :: rest) := by
  simp only [isVariableName, Bool.and_eq_true, Bool.not_eq_true', beq_iff_eq] at h
  obtain ⟨⟨hempty, hlength⟩, hclosed⟩ := h
  refine cut_value (by decide) (by decide) (by decide) fun signed => ?_
  obtain ⟨text, behind, -, -, hname⟩ :=
    nameLength_append_mark (d := ':') rest (by decide) (by decide) hclosed
  have hcut : ∀ n, nameLength n (name.toList ++ ':' :: rest) = n + name.toList.length := by
    intro n
    rw [(hname n).2, ← hlength, (hname 0).1, Nat.zero_add]
  have hne : name.toList.length ≠ 0 := by
    intro hzero
    rw [List.length_eq_zero_iff.1 hzero] at hempty
    cases hempty
  simp only [valueLexeme, hcut]
  simp [isQuote, hne, Nat.add_comm]

/-! ## The mark -/

def defaultMark : Spelling := ⟨.ident, "!default", true⟩

def statementEnd : Spelling := ⟨.semicolon, ";", false⟩

theorem apart_mark {l : Lexer} {gap : List Char} (hmode : l.mode = .value)
    (hunit : l.unitDue = false) (hgap : IsBlank gap)
    (hrest : l.rest = gap ++ ' ' :: "!default;".toList) :
    l.Apart [defaultMark, statementEnd] := by
  have hblank : IsBlank (gap ++ [' ']) :=
    List.forall_mem_append.2 ⟨hgap, List.forall_mem_singleton.2 (by decide)⟩
  have hsplit : l.rest = (gap ++ [' ']) ++ '!' :: ("default".toList ++ [';']) := by
    rw [hrest, List.append_assoc]
    rfl
  have hend : ∀ l' : Lexer, l'.mode = .value → l'.unitDue = false → l'.spaceDue = false →
      l'.rest = [';'] → l'.Apart [statementEnd] := by
    intro l' hmode' hunit' hspace' hrest'
    have hsplit' : l'.rest = [] ++ ';' :: ([] ++ []) := hrest'
    have hlast := Lexer.apart_of_lexeme hmode' hunit' hsplit' (by simp [IsBlank])
      (by simp [StartsGap]; decide) (fun signed => rfl) (by decide)
      fun m hm hmunit _ hmrest => .nil hm hmunit (by simp [IsBlank, hmrest])
    rwa [hspace'] at hlast
  have hmark := Lexer.apart_of_lexeme hmode hunit hsplit hblank (by simp [StartsGap]; decide)
    (fun signed => rfl) (by decide) hend
  have hspaced : (l.spaceDue || !(gap ++ [' ']).isEmpty) = true := by simp
  rwa [hspaced] at hmark

/-! ## The value -/

/-- The value `x`, with the mark as one more component of its last group. It has more than one group
if `comma` says so. -/
def Value.EndsMarked (comma : Bool) (x y : Value) : Prop :=
  ∃ groups items, x = .ofGroups (groups ++ [.ofComponents items]) ∧ groups.isEmpty = !comma ∧
    y = .ofGroups (groups ++ [.ofComponents (items ++ [.literal "!default"])])

theorem outerComma_spaceFirst (v : Level) (spaced : Bool) (ps : List Spelling) :
    outerComma v (spaceFirst spaced ps) = outerComma v ps := by
  cases ps <;> rfl

namespace Reading

theorem exists_valueListIn_spaceFirst {g : Grammar} {n : Nat} {ps : List Spelling} {r r' : Reader}
    {a : Value} (hr : r.Faces ps) (hrun : valueListIn g n r = .ok (a, r')) (hend : r'.Faces []) :
    ∃ s : Reader, s.Faces (spaceFirst true ps) ∧ valueListIn g n s = .ok (a, r') := by
  cases ps with
  | nil => exact ⟨r, hr, hrun⟩
  | cons p ps =>
    rw [spaceFirst, Bool.or_true]
    exact valueListIn_respaced hr hrun hend true

theorem ok_of_map_fst {α β ε : Type} {outcome : Except ε (α × β)} {a : α}
    (h : outcome.map Prod.fst = .ok a) : ∃ b, outcome = .ok (a, b) := by
  cases outcome with
  | error e => cases h
  | ok x =>
    cases h
    exact ⟨x.2, rfl⟩

/-- A text that is read as a value is read to its end. -/
theorem valueListIn_of_read {v : String} {x : Value} {ps : List Spelling}
    (hv : ((Lexer.ofSource v).setMode .value).Apart ps) (hread : Value.read v = .ok x) :
    ∃ n r', valueListIn {} n (Reader.ofValueText v) = .ok (x, r') ∧ r'.Faces [] := by
  obtain ⟨r₃, hrun⟩ := ok_of_map_fst hread
  obtain ⟨_, r, hmode, hrun⟩ := ok_of_bind hrun
  cases hmode
  obtain ⟨y, r', hvalue, hrun⟩ := ok_of_bind hrun
  obtain ⟨n, r, hroom, hvalue⟩ := ok_of_bind hvalue
  cases hroom
  have hr : (Reader.ofValueText v).Faces ps := .fresh rfl hv
  have htail : StartsWord [defaultMark] := ⟨_, _, rfl⟩
  obtain ⟨qs, ps', -, -, hr', -⟩ := (mirrorsValues htail _).valueList {} hr hvalue
  obtain ⟨t, r₂, hnext, ht, -, -⟩ := hr'.next
  rw [bind_of_ok hnext] at hrun
  cases t with
  | some t => cases hrun
  | none =>
    cases hrun
    obtain rfl := List.head?_eq_none_iff.1 ht.symm
    exact ⟨_, r', hvalue, hr'⟩

theorem faces_marked {v : String} {ps : List Spelling} {s : Reader} {room : Nat}
    (hv : ((Lexer.ofSource v).setMode .value).Apart ps) (hescape : openEscape v.toList = false)
    (hs : s.At .value (' ' :: (v.toList ++ ' ' :: "!default;".toList)) room) :
    s.Faces (spaceFirst true ps ++ [defaultMark, statementEnd]) := by
  have hblank : IsBlank [' '] := List.forall_mem_singleton.2 (by decide)
  have hwidened : ((Lexer.ofSource v).setMode .value).Widened s.lexer [' '] "!default;".toList :=
    ⟨hs.rest, hblank, hs.mode, hs.unitDue, .inr ⟨List.cons_ne_nil _ _, rfl, rfl⟩⟩
  exact .fresh hs.ahead (hv.append hescape hwidened fun m gap hm hunit hgap hrest =>
    apart_mark hm hunit hgap hrest)

theorem runs_valueList_marked {v : String} {x : Value} {ps : List Spelling} {s : Reader}
    {source : List Char} {j : Nat} (hv : ((Lexer.ofSource v).setMode .value).Apart ps)
    (hread : Value.read v = .ok x)
    (hs : s.Faces (spaceFirst true ps ++ [defaultMark, statementEnd])) (hhas : s.Has source j) :
    Runs valueList s fun y s' =>
      x.EndsMarked (outerComma .outside ps) y ∧ s'.Faces [statementEnd] := by
  obtain ⟨n, r', hrun, hend⟩ := valueListIn_of_read hv hread
  obtain ⟨r, hr, hrun⟩ := exists_valueListIn_spaceFirst (.fresh rfl hv) hrun hend
  have hsemicolon : statementEnd.kind = .semicolon := rfl
  obtain ⟨groups, items, hx, hgroups, hmarked⟩ :=
    valueListIn_append_word hsemicolon hr hrun hend
  obtain ⟨m, y, s', hrun', hy, hs'⟩ := hmarked s hs
  rw [outerComma_spaceFirst] at hgroups
  exact runs_valueList_of_has hhas ⟨y, s', hrun', ⟨groups, items, hx, hgroups, hy⟩, hs'⟩

/-! ## The assignment -/

theorem splitDefault_of_endsMarked {x y : Value} (h : x.EndsMarked false y)
    (hx : ∀ separator, x ≠ .list [] separator) : splitDefault y = (x, true) := by
  obtain ⟨groups, items, rfl, hgroups, rfl⟩ := h
  obtain rfl := List.isEmpty_iff.1 hgroups
  cases items with
  | nil => exact absurd rfl (hx .space)
  | cons item items =>
    have hlast : (item :: items ++ [Value.literal "!default"]).getLast? =
        some (.literal "!default") := List.getLast?_concat
    have hy : Value.ofGroups ([] ++ [.ofComponents (item :: items ++ [.literal "!default"])]) =
        .list (item :: items ++ [.literal "!default"]) .space := by
      cases items <;> rfl
    rw [hy, splitDefault, hlast]
    simp only [List.dropLast_concat]
    rfl

/-- With more than one group the mark stays in the last one. -/
theorem splitDefault_of_comma {x y : Value} (h : x.EndsMarked true y) :
    splitDefault y = (y, false) ∧ ∃ groups items, groups ≠ [] ∧
      x = .list (groups ++ [.ofComponents items]) .comma ∧
      y = .list (groups ++ [.ofComponents (items ++ [.literal "!default"])]) .comma := by
  obtain ⟨groups, items, rfl, hgroups, rfl⟩ := h
  cases groups with
  | nil => cases hgroups
  | cons group groups =>
    have hlist : ∀ last, Value.ofGroups (group :: groups ++ [last]) =
        .list (group :: groups ++ [last]) .comma := by
      intro last
      cases groups <;> rfl
    rw [hlist, hlist]
    exact ⟨rfl, _, items, List.cons_ne_nil _ _, rfl, rfl⟩

theorem endStatement_faces {r : Reader} (hr : r.Faces [statementEnd]) (reading : Construct) :
    Runs (endStatement reading) r fun _ r' =>
      r'.ahead = none ∧ r'.lexer.unitDue = false ∧ IsBlank r'.lexer.rest := by
  obtain ⟨t, r₁, hpeek, ht, hr₁⟩ := hr.peek
  obtain ⟨u, r₂, hnext, -, hr₂, hahead⟩ := hr₁.next
  cases t with
  | none => cases ht
  | some t =>
    have hkind : t.kind = .semicolon := congrArg Spelling.kind (Option.some.inj ht)
    have hskip : skip r₁ = .ok ((), r₂) := by
      rw [skip, bind_of_ok hnext]
      rfl
    refine runs_of_ok hpeek ?_
    dsimp only
    rw [if_pos hkind]
    obtain ⟨l, ahead, room⟩ := r₂
    cases hahead
    cases hr₂ with
    | fresh _ h =>
      cases h with
      | nil _ hunit hrest => exact runs_of_ok hskip ⟨(), _, rfl, rfl, hunit, hrest⟩

/-- The characters of the statement that assigns the text `v` with the mark. -/
def markedStatement (name v : String) : List Char :=
  ('$' :: name.toList) ++ (':' :: ' ' :: (v.toList ++ ' ' :: "!default;".toList))

theorem Reads.has {α : Type} {source : List Char} {j k : Nat} {p : Reading α} {P : α → Prop}
    (h : Reads source j k p P) {r r' : Reader} {a : α} (hr : r.Has source j)
    (hrun : p r = .ok (a, r')) : r'.Has source k := by
  have hmeets := h r hr
  rw [hrun] at hmeets
  exact hmeets.1

theorem expect_of_cut {r : Reader} {mode : LexicalMode} {kind : TokenKind}
    {word rest : List Char} {room : Nat} (hr : r.Stands mode (word ++ rest) room)
    (hcut : Cut mode kind word rest) (hkind : kind ≠ .number) (reading : Construct) :
    ∃ t r', expect kind reading r = .ok (t, r') ∧ t.IsCut kind [] word rest ∧
      r'.At mode rest room := by
  refine runs_bind (runs_require hr isGap_nil hcut hkind reading fun t r' ht hr' => ?_)
  rw [if_pos ht.kind]
  exact ⟨t, r', rfl, ht, hr'⟩

theorem name_of_isCut {t : Token} {gap name rest : List Char}
    (h : t.IsCut .reference gap ('$' :: name) rest) : t.name = String.ofList name := by
  rw [Token.name, h.kind, h.text]
  simp

theorem runs_assignment_marked {name v : String} {x : Value} {ps : List Spelling} {r : Reader}
    {source : List Char} {j room : Nat} (hname : isVariableName name = true)
    (hv : ((Lexer.ofSource v).setMode .value).Apart ps) (hescape : openEscape v.toList = false)
    (hread : Value.read v = .ok x) (hr : r.Stands .block (markedStatement name v) room)
    (hhas : r.Has source j) :
    Runs assignment r fun node r' =>
      (∃ y, x.EndsMarked (outerComma .outside ps) y ∧
        node = .assignment ⟨name, (splitDefault y).1, (splitDefault y).2⟩) ∧
      r'.ahead = none ∧ r'.lexer.unitDue = false ∧ IsBlank r'.lexer.rest := by
  obtain ⟨t, r₁, hvariable, ht, hr₁⟩ :=
    expect_of_cut hr (cut_variable hname _) (by decide) .assignment
  have hhas₁ := (reads_expect _ _).has hhas hvariable
  refine runs_of_ok hvariable ?_
  obtain ⟨_, r₂, hmode, hr₂⟩ := runs_setMode_at hr₁ .value (Q := fun _ r' => r'.At .value _ room)
    fun r' hr' => hr'
  have hhas₂ := (reads_setMode _).has hhas₁ hmode
  refine runs_of_ok hmode ?_
  have hcolon : Cut .value .colon [':'] (' ' :: (v.toList ++ ' ' :: "!default;".toList)) :=
    cut_punctuation (show LexicalMode.value ≠ .selector by decide)
      (show ':' ∈ punctuation by decide) rfl
  obtain ⟨u, r₃, hexpect, -, hr₃⟩ := expect_of_cut hr₂.stands hcolon (by decide) .assignment
  have hhas₃ := (reads_expect _ _).has hhas₂ hexpect
  refine runs_of_ok hexpect ?_
  obtain ⟨y, r₄, hvalue, hy, hr₄⟩ :=
    runs_valueList_marked hv hread (faces_marked hv hescape hr₃) hhas₃
  refine runs_of_ok hvalue ?_
  obtain ⟨_, r₅, hend, hr₅⟩ := endStatement_faces hr₄ .assignment
  refine runs_of_ok hend (runs_pure ⟨⟨y, hy, ?_⟩, hr₅⟩)
  rw [name_of_isCut ht, String.ofList_toList]
  rfl

theorem runs_itemsFrom_marked {name v : String} {x : Value} {ps : List Spelling} {r : Reader}
    {source : List Char} {j room n : Nat} (hname : isVariableName name = true)
    (hv : ((Lexer.ofSource v).setMode .value).Apart ps) (hescape : openEscape v.toList = false)
    (hread : Value.read v = .ok x) (hr : r.At .block (markedStatement name v) room)
    (hhas : r.Has source j) :
    Runs (itemsFrom 0 none [] (n + 2)) r fun nodes _ =>
      ∃ y, x.EndsMarked (outerComma .outside ps) y ∧
        nodes = [.assignment ⟨name, (splitDefault y).1, (splitDefault y).2⟩] := by
  have hstart : r.Stands .block ([] ++ markedStatement name v) room := hr.stands
  obtain ⟨t, l, ht, -, -, -, hpeek, -, hstands⟩ :=
    exists_token hstart isGap_nil (cut_variable hname _)
  have hhas' := reads_peek.has hhas hpeek
  rw [itemsFrom]
  refine runs_of_ok hpeek ?_
  dsimp only
  rw [ht.kind]
  obtain ⟨node, r₁, hitem, ⟨y, hy, rfl⟩, hahead, hunit, hrest⟩ :=
    runs_assignment_marked hname hv hescape hread hstands hhas'
  have hassignment : itemFrom 0 (none : Option Position).isNone t (n + 1) = assignment := by
    rw [itemFrom, ht.kind]
  rw [hassignment]
  refine runs_of_ok hitem ?_
  have hpeek' : peek r₁ = .ok (none, { r₁ with
      lexer := r₁.lexer.pass r₁.lexer.rest.length, ahead := none }) := by
    rw [peek, hahead, Lexer.next_of_blank hunit hrest]
  rw [itemsFrom]
  exact runs_of_ok hpeek' (runs_pure ⟨y, hy, rfl⟩)

end Reading

/-! ## The sheet -/

theorem read_marked {name v : String} {x : Value} {ps : List Spelling}
    (hname : isVariableName name = true) (hv : ((Lexer.ofSource v).setMode .value).Apart ps)
    (hescape : openEscape v.toList = false) (hread : Value.read v = .ok x) :
    ∃ y, x.EndsMarked (outerComma .outside ps) y ∧
      Sheet.read ("$" ++ name ++ ": " ++ v ++ " !default;") =
        .ok ⟨[.assignment ⟨name, (Reading.splitDefault y).1, (Reading.splitDefault y).2⟩]⟩ := by
  generalize hsource : "$" ++ name ++ ": " ++ v ++ " !default;" = source
  have htext : source.toList = Reading.markedStatement name v := by
    simp [← hsource, Reading.markedStatement]
  have hr : (Reader.ofSource source).At .block (Reading.markedStatement name v)
      (Reader.ofSource source).room := ⟨rfl, htext, rfl, rfl, rfl⟩
  obtain ⟨n, hn⟩ : ∃ n, (Reader.ofSource source).room = n + 2 :=
    ⟨8 * source.length + 6, by simp only [Reader.ofSource, Reader.stepsPerToken]; omega⟩
  obtain ⟨nodes, r', hrun, y, hy, rfl⟩ := Reading.runs_itemsFrom_marked (n := n) hname hv hescape
    hread hr (Reader.has_ofSource source)
  refine ⟨y, hy, ?_⟩
  rw [← hn] at hrun
  unfold Sheet.read
  dsimp only [StateT.run]
  rw [hrun]

/-- A statement that ends in the mark of a default. If the value has no comma outside of parentheses
and interpolations, the assignment binds a name that is not bound yet. If it has one, the assignment
binds always, and the mark is a word of the last group. -/
theorem assignment_of_read {name v : String} {x : Value} {ps : List Spelling}
    (hname : isVariableName name = true) (hv : ((Lexer.ofSource v).setMode .value).Apart ps)
    (hescape : openEscape v.toList = false) (hread : Value.read v = .ok x)
    (hx : ∀ separator, x ≠ .list [] separator) :
    ∃ a : Assignment,
      Sheet.read ("$" ++ name ++ ": " ++ v ++ " !default;") = .ok ⟨[.assignment a]⟩ ∧
      a.name = name ∧
      if outerComma .outside ps then
        a.isDefault = false ∧
        (∃ groups items, groups ≠ [] ∧ x = .list (groups ++ [.ofComponents items]) .comma ∧
          a.value = .list (groups ++ [.ofComponents (items ++ [.literal "!default"])]) .comma) ∧
        ∀ scope : Scope, scope.assign a = scope.set name a.value
      else
        a.isDefault = true ∧ a.value = x ∧
        ∀ scope : Scope, scope.assign a =
          if (scope.lookup name).isSome then scope else scope.set name x := by
  obtain ⟨y, hy, hsheet⟩ := read_marked hname hv hescape hread
  cases hcomma : outerComma .outside ps with
  | true =>
    rw [hcomma] at hy
    obtain ⟨hsplit, hgroups⟩ := Reading.splitDefault_of_comma hy
    rw [hsplit] at hsheet
    exact ⟨_, hsheet, rfl, rfl, hgroups, fun scope => rfl⟩
  | false =>
    rw [hcomma] at hy
    rw [Reading.splitDefault_of_endsMarked hy hx] at hsheet
    exact ⟨_, hsheet, rfl, rfl, rfl, fun scope => rfl⟩

def nestedTokens : List Spelling :=
  [⟨.ident, "f", false⟩, ⟨.leftParen, "(", false⟩, ⟨.ident, "a", false⟩, ⟨.comma, ",", false⟩,
    ⟨.ident, "b", true⟩, ⟨.rightParen, ")", false⟩, ⟨.interpolation, "#\x7b", true⟩,
    ⟨.reference, "$c", false⟩, ⟨.rightBrace, "\x7d", false⟩]

theorem exists_read_of_text {v : String} (hv : v ≠ "")
    (h : (Value.read v).toOption.map Value.text = some v) :
    ∃ x, Value.read v = .ok x ∧ x.text = v ∧ ∀ separator, x ≠ .list [] separator := by
  cases hread : Value.read v with
  | error e =>
    rw [hread] at h
    cases h
  | ok x =>
    rw [hread] at h
    have htext : x.text = v := Option.some.inj h
    refine ⟨x, rfl, htext, ?_⟩
    rintro separator rfl
    cases separator <;> exact hv htext.symm

/-- A call with a comma in it and an interpolation; and a comma list. -/
theorem assignment_of_read_shapes :
    (∃ a : Assignment,
      Sheet.read ("$" ++ "n" ++ ": " ++ "f(a, b) #\x7b$c\x7d" ++ " !default;") =
        .ok ⟨[.assignment a]⟩ ∧
      a.name = "n" ∧ a.isDefault = true ∧ a.value.text = "f(a, b) #\x7b$c\x7d") ∧
    ∃ a : Assignment, Sheet.read ("$" ++ "n" ++ ": " ++ "a, b" ++ " !default;") =
      .ok ⟨[.assignment a]⟩ ∧ a.name = "n" ∧ a.isDefault = false := by
  have hname : isVariableName "n" = true := by decide +kernel
  constructor
  · have hv : ((Lexer.ofSource "f(a, b) #\x7b$c\x7d").setMode .value).Apart nestedTokens :=
      Lexer.apart_of_apart rfl (n := 10) (by decide +kernel)
    obtain ⟨x, hread, htext, hx⟩ := exists_read_of_text (v := "f(a, b) #\x7b$c\x7d") (by decide)
      (by decide +kernel)
    obtain ⟨a, hsheet, ha, hcase⟩ := assignment_of_read hname hv (by decide +kernel) hread hx
    rw [if_neg (by decide)] at hcase
    obtain ⟨hdefault, rfl, -⟩ := hcase
    exact ⟨a, hsheet, ha, hdefault, htext⟩
  · have hv : ((Lexer.ofSource "a, b").setMode .value).Apart
        [⟨.ident, "a", false⟩, ⟨.comma, ",", false⟩, ⟨.ident, "b", true⟩] :=
      Lexer.apart_of_apart rfl (n := 4) (by decide +kernel)
    obtain ⟨x, hread, -, hx⟩ := exists_read_of_text (v := "a, b") (by decide) (by decide +kernel)
    obtain ⟨a, hsheet, ha, hcase⟩ := assignment_of_read hname hv (by decide +kernel) hread hx
    rw [if_pos (by decide)] at hcase
    exact ⟨a, hsheet, ha, hcase.1⟩

/-- The assignments of a sheet by name, text and whether they are defaults. -/
def assigned (sheet : Sheet) : List (String × String × Bool) :=
  sheet.nodes.filterMap fun
    | .assignment a => some (a.name, a.value.text, a.isDefault)
    | _ => none

/-- The mark is lost behind a comma list, and behind a backslash that takes the space before it. -/
theorem default_lost :
    ["a, b", "a\\"].map (fun v => ((Value.read v).toOption.map Value.text,
      (Sheet.read ("$n: " ++ v ++ " !default;")).toOption.map assigned)) =
    [(some "a, b", some [("n", "a, b !default", false)]),
      (some "a\\", some [("n", "a\\ !default", false)])] := by
  decide +kernel

end Stylesheet
