import Stylesheet.Proofs.Document.Items
import Stylesheet.Proofs.Nesting.Compilation

/-!
# Loops

The bounds of a loop are 64-bit integers, and so is all that is computed from them. Told with
unbounded integers nothing of it is lost: a range is refused exactly if it is reversed or too wide,
also if its span has more than 64 bits. Loops in blocks and loops at the root then run over the same
integers.

* `checkedSub_eq_some_iff`: a difference is exact or missing.
* `InLoop`, `Enumerates`: the integers of a loop, and the list of them.
* `Passes`: the runs of the body of a loop, one for each integer.
* `loops_are_exact`: which ranges are refused, and what the loops over the others do.
-/

namespace Stylesheet

/-! ## 64-bit integers -/

section Words

variable {a b d first last : Int64}

/-- A difference is handed on exactly if it fits into 64 bits. -/
theorem checkedSub_eq_some_iff : checkedSub a b = some d ↔ d.toInt = a.toInt - b.toInt := by
  have hlow := d.le_toInt
  have hhigh := d.toInt_lt
  rw [checkedSub]
  split
  next hover =>
    simp only [BitVec.ssubOverflow, Int64.toInt_toBitVec, Bool.or_eq_true, decide_eq_true_eq]
      at hover
    simp only [reduceCtorEq, false_iff]
    omega
  next hfits =>
    have hsub : (a - b).toInt = a.toInt - b.toInt := BitVec.toInt_sub_of_not_ssubOverflow hfits
    rw [Option.some.injEq, ← Int64.toInt_inj, hsub, eq_comm]

theorem toInt_toInt64 {n : Int} (hlow : Binary.minInteger ≤ n) (hhigh : n ≤ Binary.maxInteger) :
    n.toInt64.toInt = n := by
  unfold Binary.minInteger at hlow
  unfold Binary.maxInteger at hhigh
  exact Int64.toInt_ofInt_of_le (by omega) (by omega)

/-- What is between two words is a word. -/
theorem toInt_between {n : Int} (ha : a.toInt ≤ n) (hb : n ≤ b.toInt) : n.toInt64.toInt = n := by
  have hlow : Binary.minInteger ≤ a.toInt := a.le_toInt
  have hhigh : b.toInt ≤ Binary.maxInteger := Int.le_of_lt_add_one b.toInt_lt
  exact toInt_toInt64 (hlow.trans ha) (hb.trans hhigh)

theorem toInt_loopIterations : (Int64.ofNat Limit.loopIterations.max).toInt = 10000 := by decide

/-- A span that overflows is above the limit, since it is not negative. -/
theorem any_checkedSub_iff (h : first.toInt ≤ last.toInt) :
    (checkedSub last first).any (· ≤ .ofNat Limit.loopIterations.max) = true ↔
      last.toInt - first.toInt ≤ 10000 := by
  simp only [Option.any_eq_true, decide_eq_true_eq, Int64.le_iff_toInt_le, toInt_loopIterations]
  constructor
  · rintro ⟨d, hd, hle⟩
    rwa [← checkedSub_eq_some_iff.1 hd]
  · intro hle
    have hspan : (last.toInt - first.toInt).toInt64.toInt = last.toInt - first.toInt := by
      apply toInt_toInt64
      · exact (show Binary.minInteger ≤ 0 by decide).trans (Int.sub_nonneg.2 h)
      · exact hle.trans (by decide)
    exact ⟨_, checkedSub_eq_some_iff.2 hspan, hspan.trans_le hle⟩

/-- A double becomes a 64-bit integer. -/
theorem toInt_truncate (x : Float) : (Binary.truncate x).toInt64.toInt = Binary.truncate x := by
  have hfits : Binary.minInteger ≤ Binary.truncate x ∧ Binary.truncate x ≤ Binary.maxInteger := by
    unfold Binary.truncate Binary.Parts.truncate
    split
    · decide
    · split <;> decide
    · exact ⟨le_max_left _ _, max_le (by decide) (min_le_left _ _)⟩
  exact toInt_toInt64 hfits.1 hfits.2

end Words

/-! ## Ranges -/

/-- An integer that a loop runs over. -/
def InLoop (first last : Int64) (inclusive : Bool) (i : Int) : Prop :=
  first.toInt ≤ i ∧ if inclusive then i ≤ last.toInt else i < last.toInt

/-- A range that is neither reversed nor too wide. -/
def Admitted (first last : Int64) : Prop :=
  first.toInt ≤ last.toInt ∧ last.toInt - first.toInt ≤ 10000

/-- All integers of a loop in increasing order. -/
structure Enumerates (first last : Int64) (inclusive : Bool) (range : List Int) : Prop where
  increasing : range.Pairwise (· < ·)
  mem_iff (i : Int) : i ∈ range ↔ InLoop first last inclusive i

/-- The last integer that a loop can reach. -/
def finalInteger (last : Int64) (inclusive : Bool) : Int :=
  if inclusive then last.toInt else last.toInt - 1

section Ranges

variable {first last : Int64} {inclusive : Bool}

theorem finalInteger_le (last : Int64) (inclusive : Bool) :
    finalInteger last inclusive ≤ last.toInt := by
  unfold finalInteger
  split <;> omega

theorem inLoop_iff {i : Int} :
    InLoop first last inclusive i ↔ first.toInt ≤ i ∧ i ≤ finalInteger last inclusive := by
  cases inclusive <;> simp [InLoop, finalInteger]

theorem mem_integers {first last i : Int} : i ∈ integers first last ↔ first ≤ i ∧ i ≤ last := by
  simp only [integers, List.mem_map, List.mem_range]
  constructor
  · rintro ⟨n, hn, rfl⟩
    omega
  · rintro ⟨hfirst, hlast⟩
    exact ⟨(i - first).toNat, by omega, by omega⟩

theorem pairwise_integers (first last : Int) : (integers first last).Pairwise (· < ·) :=
  List.pairwise_map.2 (List.pairwise_lt_range.imp fun h => by omega)

theorem enumerates_integers (first last : Int64) (inclusive : Bool) :
    Enumerates first last inclusive (integers first.toInt (finalInteger last inclusive)) :=
  ⟨pairwise_integers _ _, fun _ => mem_integers.trans inLoop_iff.symm⟩

theorem Enumerates.eq {range range' : List Int} (h : Enumerates first last inclusive range)
    (h' : Enumerates first last inclusive range') : range = range' :=
  h.increasing.eq_of_mem_iff h'.increasing fun i => (h.mem_iff i).trans (h'.mem_iff i).symm

/-- A loop counts in 64 bits. -/
theorem Enumerates.exists_word {range : List Int} (h : Enumerates first last inclusive range)
    {i : Int} (hi : i ∈ range) : ∃ word : Int64, word.toInt = i := by
  obtain ⟨hfirst, hfinal⟩ := inLoop_iff.1 ((h.mem_iff i).1 hi)
  exact ⟨_, toInt_between hfirst (hfinal.trans (finalInteger_le last inclusive))⟩

end Ranges

/-! ## Bounds -/

section Bounds

variable {first last : Int64} {inclusive : Bool}

theorem loopBounds_toInt (first last : Int64) (inclusive : Bool) :
    loopBounds first.toInt last.toInt inclusive =
      (wordBounds first last inclusive).map (Option.map (Prod.map Int64.toInt Int64.toInt)) := by
  have hfirst : first.toInt.toInt64 = first := Int64.ofInt_toInt first
  have hlast : last.toInt.toInt64 = last := Int64.ofInt_toInt last
  rw [loopBounds, hfirst, hlast]

theorem loopBounds_reversed (inclusive : Bool) (h : last.toInt < first.toInt) :
    loopBounds first.toInt last.toInt inclusive =
      .error (.invalidLoopRange first.toInt last.toInt) := by
  rw [loopBounds_toInt, wordBounds, if_pos (Int64.lt_iff_toInt_lt.2 h)]
  rfl

theorem loopBounds_wide (inclusive : Bool) (h : first.toInt ≤ last.toInt)
    (hwide : 10000 < last.toInt - first.toInt) :
    ∃ detail, loopBounds first.toInt last.toInt inclusive =
      .error (.limitExceeded .loopIterations detail) := by
  have hforward : ¬ last < first := Int64.not_lt.2 (Int64.le_iff_toInt_le.2 h)
  have hspan : ¬ (checkedSub last first).any (· ≤ .ofNat Limit.loopIterations.max) = true := by
    rw [any_checkedSub_iff h]
    omega
  rw [loopBounds_toInt, wordBounds, if_neg hforward, if_neg hspan]
  exact ⟨_, rfl⟩

/-- The last integer as a word. Only below the least word there is none. -/
theorem finalWord_eq_some_iff {final : Int64} :
    (if inclusive then some last else checkedSub last 1) = some final ↔
      final.toInt = finalInteger last inclusive := by
  cases inclusive with
  | true => exact Option.some_inj.trans (eq_comm.trans Int64.toInt_inj.symm)
  | false => exact checkedSub_eq_some_iff

/-- The range of an admitted loop, which has no integer if an exclusive end is its start. -/
theorem loopBounds_admitted (inclusive : Bool) (h : Admitted first last) :
    loopBounds first.toInt last.toInt inclusive =
      .ok (if first.toInt ≤ finalInteger last inclusive
        then some (first.toInt, finalInteger last inclusive) else none) := by
  obtain ⟨hle, hspan⟩ := h
  have hforward : ¬ last < first := Int64.not_lt.2 (Int64.le_iff_toInt_le.2 hle)
  rw [loopBounds_toInt, wordBounds, if_neg hforward, if_pos ((any_checkedSub_iff hle).2 hspan)]
  refine congrArg Except.ok ?_
  by_cases hreached : first.toInt ≤ finalInteger last inclusive
  · have hfinal := toInt_between hreached (finalInteger_le last inclusive)
    have hfirst : first ≤ (finalInteger last inclusive).toInt64 := by
      rw [Int64.le_iff_toInt_le, hfinal]
      exact hreached
    rw [finalWord_eq_some_iff.2 hfinal, Option.filter_some, if_pos (decide_eq_true hfirst)]
    simp only [Option.map_some, Prod.map_apply, hfinal, if_pos hreached]
  · have hnone : (if inclusive then some last else checkedSub last 1).filter (first ≤ ·) = none := by
      refine Option.filter_eq_none_iff.2 fun final hsome => ?_
      rw [decide_eq_true_eq, Int64.le_iff_toInt_le, finalWord_eq_some_iff.1 hsome]
      exact hreached
    rw [hnone, if_neg hreached]
    rfl

/-- A range that is not admitted is reversed or too wide. -/
theorem loopBounds_refused (inclusive : Bool) (h : ¬ Admitted first last) :
    ∃ e, loopBounds first.toInt last.toInt inclusive = .error e := by
  unfold Admitted at h
  by_cases hle : first.toInt ≤ last.toInt
  · obtain ⟨detail, hwide⟩ := loopBounds_wide inclusive hle (by omega)
    exact ⟨_, hwide⟩
  · exact ⟨_, loopBounds_reversed inclusive (by omega)⟩

theorem loopBounds_invalid_iff :
    (∃ i j, loopBounds first.toInt last.toInt inclusive = .error (.invalidLoopRange i j)) ↔
      last.toInt < first.toInt := by
  constructor
  · rintro ⟨i, j, h⟩
    by_contra hle
    by_cases hspan : last.toInt - first.toInt ≤ 10000
    · rw [loopBounds_admitted inclusive ⟨not_lt.1 hle, hspan⟩] at h
      cases h
    · obtain ⟨detail, hwide⟩ := loopBounds_wide inclusive (not_lt.1 hle) (not_le.1 hspan)
      rw [hwide] at h
      cases h
  · exact fun h => ⟨_, _, loopBounds_reversed inclusive h⟩

theorem loopBounds_limit_iff :
    (∃ detail, loopBounds first.toInt last.toInt inclusive =
        .error (.limitExceeded .loopIterations detail)) ↔
      first.toInt ≤ last.toInt ∧ 10000 < last.toInt - first.toInt := by
  constructor
  · rintro ⟨detail, h⟩
    by_cases hle : first.toInt ≤ last.toInt
    · refine ⟨hle, not_le.1 fun hspan => ?_⟩
      rw [loopBounds_admitted inclusive ⟨hle, hspan⟩] at h
      cases h
    · rw [loopBounds_reversed inclusive (not_le.1 hle)] at h
      cases h
  · exact fun h => loopBounds_wide inclusive h.1 h.2

theorem loopBounds_ok (inclusive : Bool) (h : Admitted first last) :
    ∃ bounds, loopBounds first.toInt last.toInt inclusive = .ok bounds ∧
      ∀ i, (∃ low high, bounds = some (low, high) ∧ low ≤ i ∧ i ≤ high) ↔
        InLoop first last inclusive i := by
  refine ⟨_, loopBounds_admitted inclusive h, fun i => ?_⟩
  rw [inLoop_iff]
  split
  next hreached =>
    constructor
    · rintro ⟨low, high, hbounds, hi⟩
      cases hbounds
      exact hi
    · exact fun hi => ⟨_, _, rfl, hi⟩
  next hmissed =>
    constructor
    · rintro ⟨low, high, hbounds, -⟩
      cases hbounds
    · intro hi
      omega

end Bounds

/-! ## Passes -/

/-- The passes of a loop. Each runs the body once, with its integer bound to the counter, in the
scope and the state that the one before it left. -/
inductive Passes {σ : Type} (body : Scope → σ → Scope → σ → Prop) (counter : String) :
    List Int → Scope → σ → σ → Prop
  | nil (scope : Scope) (a : σ) : Passes body counter [] scope a a
  | cons {i : Int} {range : List Int} {scope inner : Scope} {a b c : σ}
      (hpass : body (scope.set counter (.number (Binary.ofInt i))) a inner b)
      (hrest : Passes body counter range inner b c) : Passes body counter (i :: range) scope a c

/-- A run of the items of a block. What is left of them comes after what was left before. -/
def RunsInBlock (run : Scope → Metered (List Node × Scope)) (scope : Scope)
    (before : List Node × Session) (inner : Scope) (after : List Node × Session) : Prop :=
  ∃ nodes, Gives (run scope) before.2 (nodes, inner) after.2 ∧ after.1 = before.1 ++ nodes

/-- A run of root items, which goes on with the page. -/
def RunsAtRoot (run : Scope × Page → Writing (Scope × Page)) (scope : Scope)
    (before : Page × Writer) (inner : Scope) (after : Page × Writer) : Prop :=
  Gives (run (scope, before.1)) before.2 (inner, after.1) after.2

/-- If each step of a fold is a pass, then the whole fold is a row of passes. -/
theorem gives_foldlM_iff {α ρ σ : Type} {step : α → Int → ExceptT CompileError (StateM σ) α}
    {body : Scope → ρ × σ → Scope → ρ × σ → Prop} {counter : String} (innermost : α → Scope)
    (result : α → ρ)
    (hstep : ∀ acc i s inner out t,
      (∃ acc', Gives (step acc i) s acc' t ∧ innermost acc' = inner ∧ result acc' = out) ↔
        body ((innermost acc).set counter (.number (Binary.ofInt i))) (result acc, s) inner (out, t))
    (range : List Int) (acc : α) (s : σ) (out : ρ) (t : σ) :
    Gives (range.foldlM step acc >>= fun acc => pure (result acc)) s out t ↔
      Passes body counter range (innermost acc) (result acc, s) (out, t) := by
  induction range generalizing acc s with
  | nil =>
    constructor
    · intro h
      obtain ⟨rfl, rfl⟩ := h.of_pure
      exact .nil _ _
    · intro h
      cases h
      exact gives_pure _ _
  | cons i range ih =>
    rw [List.foldlM_cons, bind_assoc]
    constructor
    · intro h
      obtain ⟨next, u, hnext, hrest⟩ := h.of_bind
      exact .cons ((hstep acc i s _ _ u).1 ⟨next, hnext, rfl, rfl⟩) ((ih next u).1 hrest)
    · intro h
      cases h with
      | @cons _ _ _ inner _ middle _ hpass hrest =>
        obtain ⟨middle, u⟩ := middle
        obtain ⟨next, hnext, rfl, rfl⟩ := (hstep acc i s inner middle u).2 hpass
        exact hnext.bind ((ih next u).2 hrest)

section Passes

variable {counter : String} {scope : Scope} {range : List Int}

theorem gives_runLoop_iff {run : Scope → Metered (List Node × Scope)} {out : List Node}
    {s t : Session} :
    Gives (Environment.runLoop run counter scope range) s out t ↔
      Passes (RunsInBlock run) counter range scope.child ([], s) (out, t) := by
  unfold Environment.runLoop
  -- The loop keeps what its passes leave with the last one in front.
  refine gives_foldlM_iff Prod.snd (fun acc => acc.1.reverse.flatten) ?_ range ([], scope.child) s
    out t
  rintro ⟨parts, scope⟩ i s inner out t
  constructor
  · rintro ⟨acc, h, rfl, rfl⟩
    obtain ⟨⟨nodes, inner⟩, v, hrun, h⟩ := h.of_bind
    obtain ⟨rfl, rfl⟩ := h.of_pure
    exact ⟨nodes, hrun, by simp⟩
  · rintro ⟨nodes, hrun, hout⟩
    refine ⟨(nodes :: parts, inner), hrun.bind (gives_pure _ _), rfl, ?_⟩
    rw [show out = parts.reverse.flatten ++ nodes from hout]
    simp

theorem gives_runRootLoop_iff {run : Scope × Page → Writing (Scope × Page)} {page page' : Page}
    {w w' : Writer} :
    Gives (runRootLoop run counter scope page range) w page' w' ↔
      Passes (RunsAtRoot run) counter range scope.child (page, w) (page', w') := by
  unfold runRootLoop
  refine gives_foldlM_iff Prod.fst Prod.snd ?_ range (scope.child, page) w page' w'
  rintro ⟨scope, page⟩ i w inner page' w'
  constructor
  · rintro ⟨acc, h, rfl, rfl⟩
    exact h
  · exact fun h => ⟨(inner, page'), h, rfl, rfl⟩

end Passes

/-! ## Loops -/

/-- The bounds of a loop are evaluated to two 64-bit integers. -/
def BoundsGive (env : Environment) (scope : Scope) (start stop : Value) (s : Session)
    (first last : Int64) (t : Session) : Prop :=
  ∃ x y u, Gives (evaluateNumber env.functions scope start) s x u ∧
    Gives (evaluateNumber env.functions scope stop) u y t ∧
    (Binary.truncate x).toInt64 = first ∧ (Binary.truncate y).toInt64 = last

section Loops

variable {env : Environment} {scope : Scope} {start stop : Value} {s t : Session}
  {first last : Int64} {inclusive : Bool} {range : List Int}

theorem loopRange_refused (h : BoundsGive env scope start stop s first last t)
    {e : CompileError} (he : loopBounds first.toInt last.toInt inclusive = .error e) :
    env.loopRange scope start stop inclusive s = (.error e, t) := by
  obtain ⟨x, y, u, hx, hy, rfl, rfl⟩ := h
  rw [toInt_truncate, toInt_truncate] at he
  rw [Environment.loopRange, work_bind_ok hx, work_bind_ok hy, he]
  rfl

theorem loopRange_admitted (h : BoundsGive env scope start stop s first last t)
    (hadmitted : Admitted first last) :
    env.loopRange scope start stop inclusive s =
      (.ok (integers first.toInt (finalInteger last inclusive)), t) := by
  have hbounds := loopBounds_admitted inclusive hadmitted
  obtain ⟨x, y, u, hx, hy, rfl, rfl⟩ := h
  rw [toInt_truncate, toInt_truncate] at hbounds
  rw [Environment.loopRange, work_bind_ok hx, work_bind_ok hy, hbounds, toInt_truncate]
  split
  next hreached => rfl
  next hmissed =>
    have hempty : integers (Binary.truncate x)
        (finalInteger (Binary.truncate y).toInt64 inclusive) = [] := by
      refine List.eq_nil_iff_forall_not_mem.2 fun i hi => ?_
      have hi := mem_integers.1 hi
      omega
    rw [hempty]
    rfl

/-- A loop has a range exactly if its bounds are admitted. -/
theorem gives_loopRange_iff (h : BoundsGive env scope start stop s first last t) {u : Session} :
    Gives (env.loopRange scope start stop inclusive) s range u ↔
      Admitted first last ∧ Enumerates first last inclusive range ∧ u = t := by
  have hintegers := enumerates_integers first last inclusive
  by_cases hadmitted : Admitted first last
  · rw [Gives, loopRange_admitted h hadmitted]
    constructor
    · intro hrange
      obtain ⟨hok, rfl⟩ := Prod.mk.inj hrange
      exact ⟨hadmitted, Except.ok.inj hok ▸ hintegers, rfl⟩
    · rintro ⟨-, hrange, rfl⟩
      rw [hintegers.eq hrange]
  · obtain ⟨e, he⟩ := loopBounds_refused inclusive hadmitted
    rw [Gives, loopRange_refused h he]
    constructor
    · intro hrange
      cases hrange
    · exact fun hrange => absurd hrange.1 hadmitted

/-- A loop in a block. -/
theorem gives_loop_iff (h : BoundsGive env scope start stop s first last t)
    (hrange : Enumerates first last inclusive range) {enter : Environment.Run} {counter : String}
    {body out : List Node} {scope' : Scope} {u : Session} :
    Gives (env.evalNodeBy enter (.loop counter start stop inclusive body) scope) s (out, scope') u ↔
      Admitted first last ∧ scope' = scope ∧
        Passes (RunsInBlock (env.evalNodesBy enter body)) counter range scope.child ([], t)
          (out, u) := by
  rw [Environment.evalNodeBy]
  constructor
  · intro hloop
    obtain ⟨range', v, hrange', hloop⟩ := hloop.of_bind
    obtain ⟨hadmitted, henumerates, rfl⟩ := (gives_loopRange_iff h).1 hrange'
    obtain ⟨nodes, v, hpasses, hloop⟩ := hloop.of_bind
    obtain ⟨hresult, rfl⟩ := hloop.of_pure
    obtain ⟨rfl, rfl⟩ := Prod.mk.inj hresult
    rw [henumerates.eq hrange] at hpasses
    exact ⟨hadmitted, rfl, gives_runLoop_iff.1 hpasses⟩
  · rintro ⟨hadmitted, rfl, hpasses⟩
    have hgives := (gives_loopRange_iff h).2 ⟨hadmitted, hrange, rfl⟩
    exact hgives.bind ((gives_runLoop_iff.2 hpasses).bind (gives_pure _ _))

/-- A loop at the root of a document. -/
theorem gives_rootLoop_iff {context : Context} {w w' : Writer}
    (h : BoundsGive (environment context w) scope start stop w.session first last t)
    (hrange : Enumerates first last inclusive range) {resolver : Option Resolver}
    {load : String → List Node → Scope → Writing String} {enter : RootRun} {counter : String}
    {body : List Node} {scope' : Scope} {page page' : Page} :
    Gives (rootNodeBy context resolver load enter (.loop counter start stop inclusive body)
        (scope, page)) w (scope', page') w' ↔
      Admitted first last ∧ scope' = scope ∧
        Passes (RunsAtRoot (rootNodesBy context resolver load enter body)) counter range scope.child
          (page, { w with session := t }) (page', w') := by
  rw [rootNodeBy]
  constructor
  · intro hloop
    obtain ⟨range', v, hmetered, hloop⟩ := hloop.of_get.of_bind
    obtain ⟨u, hrange', rfl⟩ := hmetered.of_ofMetered
    obtain ⟨hadmitted, henumerates, rfl⟩ := (gives_loopRange_iff h).1 hrange'
    obtain ⟨after, v, hpasses, hloop⟩ := hloop.of_bind
    obtain ⟨hresult, rfl⟩ := hloop.of_pure
    obtain ⟨rfl, rfl⟩ := Prod.mk.inj hresult
    rw [henumerates.eq hrange] at hpasses
    exact ⟨hadmitted, rfl, gives_runRootLoop_iff.1 hpasses⟩
  · rintro ⟨hadmitted, rfl, hpasses⟩
    have hget : Gives (get : Writing Writer) w w w := rfl
    have hgives := Nesting.gives_ofMetered ((gives_loopRange_iff h).2 ⟨hadmitted, hrange, rfl⟩)
    refine hget.bind (hgives.bind ((gives_runRootLoop_iff.2 hpasses).bind ?_))
    exact gives_pure _ _

/-- For all 64-bit bounds a loop is refused if they are reversed, or else if they are more than
10000 apart, and any other loop runs its body once for each of its integers, in increasing order.
It does so in a block and at the root alike, and no difference that is taken on the way wraps
around. -/
theorem loops_are_exact (first last : Int64) (inclusive : Bool) :
    ((∃ i j, loopBounds first.toInt last.toInt inclusive = .error (.invalidLoopRange i j)) ↔
      last.toInt < first.toInt) ∧
    ((∃ detail, loopBounds first.toInt last.toInt inclusive =
        .error (.limitExceeded .loopIterations detail)) ↔
      first.toInt ≤ last.toInt ∧ 10000 < last.toInt - first.toInt) ∧
    (first.toInt ≤ last.toInt ∧ last.toInt - first.toInt ≤ 10000 →
      ∃ bounds, loopBounds first.toInt last.toInt inclusive = .ok bounds ∧
        ∀ i, (∃ low high, bounds = some (low, high) ∧ low ≤ i ∧ i ≤ high) ↔
          InLoop first last inclusive i) ∧
    (∀ a b d : Int64, checkedSub a b = some d ↔ d.toInt = a.toInt - b.toInt) ∧
    (∃ range, Enumerates first last inclusive range) ∧
    ∀ range, Enumerates first last inclusive range →
      (∀ i ∈ range, ∃ word : Int64, word.toInt = i) ∧
      (∀ (env : Environment) (enter : Environment.Run) (counter : String) (start stop : Value)
        (body : List Node) (scope : Scope) (s t : Session),
        BoundsGive env scope start stop s first last t →
        ∀ out scope' u,
          Gives (env.evalNodeBy enter (.loop counter start stop inclusive body) scope) s
              (out, scope') u ↔
            Admitted first last ∧ scope' = scope ∧
              Passes (RunsInBlock (env.evalNodesBy enter body)) counter range scope.child ([], t)
                (out, u)) ∧
      ∀ (context : Context) (resolver : Option Resolver)
        (load : String → List Node → Scope → Writing String) (enter : RootRun) (counter : String)
        (start stop : Value) (body : List Node) (scope : Scope) (w : Writer) (t : Session),
        BoundsGive (environment context w) scope start stop w.session first last t →
        ∀ page scope' page' w',
          Gives (rootNodeBy context resolver load enter (.loop counter start stop inclusive body)
              (scope, page)) w (scope', page') w' ↔
            Admitted first last ∧ scope' = scope ∧
              Passes (RunsAtRoot (rootNodesBy context resolver load enter body)) counter range
                scope.child (page, { w with session := t }) (page', w') := by
  refine ⟨loopBounds_invalid_iff, loopBounds_limit_iff, loopBounds_ok inclusive,
    fun _ _ _ => checkedSub_eq_some_iff, ⟨_, enumerates_integers first last inclusive⟩,
    fun range hrange => ⟨fun _ hi => hrange.exists_word hi, ?_, ?_⟩⟩
  · intro env enter counter start stop body scope s t hbounds out scope' u
    exact gives_loop_iff hbounds hrange
  · intro context resolver load enter counter start stop body scope w t hbounds page scope' page' w'
    exact gives_rootLoop_iff hbounds hrange

end Loops

section Example

/-- Two passes, without the end. -/
def loopAroundZero (body : List Node) : Node :=
  .loop "i" (.number (Binary.ofInt (-1))) (.number (Binary.ofInt 1)) false body

def widthOf (value : Value) : Node := .declaration ⟨"width", value, default⟩

/-- The scope of a pass over `i`. -/
def passScope (scope : Scope) (i : Int) : Scope := scope.set "i" (.number (Binary.ofInt i))

theorem enumerates_around_zero : Enumerates (-1) 1 false [-1, 0] := by
  have hfirst : (-1 : Int64).toInt = -1 := by decide
  have hlast : (1 : Int64).toInt = 1 := by decide
  refine ⟨by decide, fun i => ?_⟩
  rw [List.mem_pair, inLoop_iff, finalInteger, hfirst, hlast, if_neg Bool.false_ne_true]
  omega

/-- A loop with an exclusive end, in a block and at the root. -/
theorem loops_are_exact_around_zero :
    ((-1 : Int64).toInt ≤ (1 : Int64).toInt ∧ (1 : Int64).toInt - (-1 : Int64).toInt ≤ 10000) ∧
    Enumerates (-1) 1 false [-1, 0] ∧
    BoundsGive (environment {} {}) {} (.number (Binary.ofInt (-1))) (.number (Binary.ofInt 1)) {}
      (-1) 1 {} ∧
    Gives ((environment {} {}).evalNodeBy ((environment {} {}).evalNodesIn 0)
        (loopAroundZero [widthOf (.reference "i")]) {}) {}
      ([widthOf (.number (Binary.ofInt (-1))), widthOf (.number (Binary.ofInt 0))], {})
      { nodes := 2 } ∧
    Gives (rootNodeBy {} none (documentIn {} none 0) (rootNodesIn {} none (documentIn {} none 0) 0)
        (loopAroundZero [.comment "x"]) ({}, {})) {} ({}, ⟨"/* x */\n/* x */", true⟩) {} := by
  have hadmitted : (-1 : Int64).toInt ≤ (1 : Int64).toInt ∧
      (1 : Int64).toInt - (-1 : Int64).toInt ≤ 10000 := by decide
  have hbounds : BoundsGive (environment {} {}) {} (.number (Binary.ofInt (-1)))
      (.number (Binary.ofInt 1)) {} (-1) 1 {} :=
    ⟨Binary.ofInt (-1), Binary.ofInt 1, {}, rfl, rfl, by decide +kernel, by decide +kernel⟩
  obtain ⟨-, -, -, -, -, hloops⟩ := loops_are_exact (-1) 1 false
  obtain ⟨-, hblock, hroot⟩ := hloops [-1, 0] enumerates_around_zero
  refine ⟨hadmitted, enumerates_around_zero, hbounds, ?_, ?_⟩
  · have hfirst : Gives ((environment {} {}).evalNodesBy ((environment {} {}).evalNodesIn 0)
        [widthOf (.reference "i")] (passScope (Scope.child {}) (-1))) {}
        ([widthOf (.number (Binary.ofInt (-1)))], passScope (Scope.child {}) (-1))
        { nodes := 1 } := rfl
    have hsecond : Gives ((environment {} {}).evalNodesBy ((environment {} {}).evalNodesIn 0)
        [widthOf (.reference "i")] (passScope (passScope (Scope.child {}) (-1)) 0)) { nodes := 1 }
        ([widthOf (.number (Binary.ofInt 0))], passScope (passScope (Scope.child {}) (-1)) 0)
        { nodes := 2 } := rfl
    refine (hblock _ _ "i" _ _ _ {} {} {} hbounds _ _ _).2 ⟨hadmitted, rfl, ?_⟩
    exact .cons (b := ([_], _)) ⟨_, hfirst, rfl⟩
      (.cons (b := ([_, _], _)) ⟨_, hsecond, rfl⟩ (.nil _ _))
  · have hpass : ∀ scope page w, RunsAtRoot (rootNodesBy {} none (documentIn {} none 0)
        (rootNodesIn {} none (documentIn {} none 0) 0) [.comment "x"]) scope (page, w) scope
        (page.add "/* x */", w) := fun _ _ _ => rfl
    refine (hroot _ _ _ _ "i" _ _ _ {} {} {} hbounds _ _ _ _).2 ⟨hadmitted, rfl, ?_⟩
    exact .cons (hpass _ _ _) (.cons (hpass _ _ _) (.nil _ _))

end Example

end Stylesheet
