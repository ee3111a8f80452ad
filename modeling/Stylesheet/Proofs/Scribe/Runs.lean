import Stylesheet.Proofs.Evaluation.Congruence
import Stylesheet.Proofs.Scribe.Basic

/-!
# Runs of a scribe

A run ends if the steps suffice from some number on. Reducing values always ends: the depth of a
session bounds the calls, with the result that the functions with levels left have.

* `Settles`: the result that a run ends with.
* `Reduces`: work that leaves the session as it was, whose result hangs on the depth only.
* `reduces_evaluate`, `reduces_resolve`: evaluation and resolution of values.
-/

namespace Stylesheet

/-! ## Results of work -/

section Work

variable {σ α β : Type} {work : ExceptT CompileError (StateM σ) α}
  {next : α → ExceptT CompileError (StateM σ) β} {s s' : σ} {a : α} {e : CompileError}

theorem state_bind {work : StateM σ α} {next : α → StateM σ β} (h : work s = (a, s')) :
    (work >>= next) s = next a s' := by
  show (match work s with | (a, s) => next a s) = _
  rw [h]

theorem work_bind_ok (h : work s = (.ok a, s')) : (work >>= next) s = next a s' := by
  show (match work s with | (outcome, s) => ExceptT.bindCont next outcome s) = _
  rw [h]
  rfl

theorem work_bind_error (h : work s = (.error e, s')) : (work >>= next) s = (.error e, s') := by
  show (match work s with | (outcome, s) => ExceptT.bindCont next outcome s) = _
  rw [h]
  rfl

end Work

namespace Metered

variable {s : Session}

theorem descend_ok (h : s.depth < Limit.evaluationDepth.max) :
    descend s = (.ok (), { s with depth := s.depth + 1 }) := by
  show (if Limit.evaluationDepth.max ≤ s.depth then throw (.limitExceeded .evaluationDepth "")
    else set { s with depth := s.depth + 1 } : Metered Unit) s = _
  rw [if_neg (by omega)]
  rfl

theorem descend_error (h : Limit.evaluationDepth.max ≤ s.depth) :
    descend s = (.error (.limitExceeded .evaluationDepth ""), s) := by
  show (if Limit.evaluationDepth.max ≤ s.depth then throw (.limitExceeded .evaluationDepth "")
    else set { s with depth := s.depth + 1 } : Metered Unit) s = _
  rw [if_pos h]
  rfl

end Metered

/-- The desk with another session. -/
def Desk.withSession (d : Desk) (session : Session) : Desk :=
  { d with writer := { d.writer with session } }

namespace Scribe

variable {α β : Type} {u : Scribe α} {next : α → Scribe β} {d d' : Desk} {a : α} {e : CompileError}

theorem bind_ok (h : u d = some (.ok a, d')) : (u >>= next) d = next a d' := by
  show (u d).bind (fun p => ExceptT.bindCont next p.1 p.2) = _
  rw [h]
  rfl

theorem bind_error (h : u d = some (.error e, d')) : (u >>= next) d = some (.error e, d') := by
  show (u d).bind (fun p => ExceptT.bindCont next p.1 p.2) = _
  rw [h]
  rfl

theorem attempt_eq {o : Except CompileError α} (h : u d = some (o, d')) :
    attempt u d = some (.ok o, d') := by
  rw [attempt, h]
  rfl

theorem ofMetered_eq {work : Metered α} {o : Except CompileError α} {s : Session}
    (h : work d.writer.session = (o, s)) : ofMetered work d = some (o, d.withSession s) := by
  rw [ofMetered, h]
  rfl

end Scribe

/-! ## Runs that end -/

/-- With all numbers of steps from some one on, the work ends with the result `r`. -/
def Settles {α : Type} (u : Nat → Scribe α) (d : Desk) (r : Except CompileError α × Desk) : Prop :=
  ∃ n, ∀ m, n ≤ m → u m d = some r

namespace Settles

variable {α β : Type} {u v : Nat → Scribe α} {next : Nat → α → Scribe β} {d d' : Desk}
  {r : Except CompileError α × Desk} {o : Except CompileError α} {a : α} {e : CompileError}

theorem of_eq (h : ∀ n, u n d = some r) : Settles u d r := ⟨0, fun m _ => h m⟩

theorem congr (h : Settles v d r) (hu : ∀ n, u n d = v n d) : Settles u d r := by
  obtain ⟨n, hn⟩ := h
  exact ⟨n, fun m hm => (hu m).trans (hn m hm)⟩

/-- Work that takes one step more ends as well. -/
theorem step (h : Settles v d r) (hu : ∀ n, u (n + 1) d = v n d) : Settles u d r := by
  obtain ⟨n, hn⟩ := h
  refine ⟨n + 1, fun m hm => ?_⟩
  obtain ⟨m, rfl⟩ := Nat.exists_eq_succ_of_ne_zero (by omega : m ≠ 0)
  rw [hu]
  exact hn m (by omega)

theorem bind {r : Except CompileError β × Desk} (h : Settles u d (.ok a, d'))
    (hnext : Settles (fun n => next n a) d' r) : Settles (fun n => u n >>= next n) d r := by
  obtain ⟨n, hn⟩ := h
  obtain ⟨m, hm⟩ := hnext
  refine ⟨max n m, fun k hk => ?_⟩
  exact (Scribe.bind_ok (hn k (by omega))).trans (hm k (by omega))

theorem bind_error (h : Settles u d (.error e, d')) :
    Settles (fun n => u n >>= next n) d (.error e, d') := by
  obtain ⟨n, hn⟩ := h
  exact ⟨n, fun m hm => Scribe.bind_error (hn m hm)⟩

theorem attempt (h : Settles u d (o, d')) :
    Settles (fun n => Scribe.attempt (u n)) d (.ok o, d') := by
  obtain ⟨n, hn⟩ := h
  exact ⟨n, fun m hm => Scribe.attempt_eq (hn m hm)⟩

end Settles

/-! ## Values

Reducing a value leaves the session as it was, and depends on it only through the depth. -/

def Reduces {α : Type} (u : Nat → Scribe α) (b : Metered α) (k : Nat) : Prop :=
  ∃ o, (∀ s : Session, s.depth = k → b s = (o, s)) ∧
    ∀ d : Desk, d.writer.session.depth = k → Settles u d (o, d)

namespace Reduces

variable {α β : Type} {u : Nat → Scribe α} {b : Metered α} {k : Nat}
  {next : Nat → α → Scribe β} {g : α → Metered β}

theorem pure (a : α) (k : Nat) : Reduces (fun _ => Pure.pure a) (Pure.pure a) k :=
  ⟨.ok a, fun _ _ => rfl, fun _ _ => .of_eq fun _ => rfl⟩

theorem throw (e : CompileError) (k : Nat) :
    Reduces (α := α) (fun _ => MonadExcept.throw e) (MonadExcept.throw e) k :=
  ⟨.error e, fun _ _ => rfl, fun _ _ => .of_eq fun _ => rfl⟩

theorem ofExcept (o : Except CompileError α) (k : Nat) :
    Reduces (fun _ => Scribe.ofExcept o) (Metered.ofExcept o) k := by
  cases o with
  | ok a => exact Reduces.pure a k
  | error e => exact Reduces.throw e k

theorem bind (h : Reduces u b k) (hnext : ∀ a, Reduces (fun n => next n a) (g a) k) :
    Reduces (fun n => u n >>= next n) (b >>= g) k := by
  obtain ⟨o, hb, hu⟩ := h
  cases o with
  | error e =>
    exact ⟨.error e, fun s hs => work_bind_error (hb s hs), fun d hd => (hu d hd).bind_error⟩
  | ok a =>
    obtain ⟨o, hg, hrun⟩ := hnext a
    refine ⟨o, fun s hs => ?_, fun d hd => (hu d hd).bind (hrun d hd)⟩
    rw [work_bind_ok (hb s hs)]
    exact hg s hs

theorem congruence :
    Congruence fun α (u : Nat → Scribe α) (b : Metered α) => Reduces u b k :=
  ⟨fun o => ofExcept o k, fun h hnext => h.bind hnext⟩

theorem step {v : Nat → Scribe α} (h : Reduces v b k) (hu : ∀ n, u (n + 1) = v n) :
    Reduces u b k := by
  obtain ⟨o, hb, hv⟩ := h
  exact ⟨o, hb, fun d hd => (hv d hd).step fun n => by rw [hu]⟩

theorem tooDeep (hk : Limit.evaluationDepth.max ≤ k) :
    Reduces (fun n => Scribe.nested (u n)) Stylesheet.tooDeep k := by
  refine ⟨.error (.limitExceeded .evaluationDepth ""), fun _ _ => rfl, fun d hd => ?_⟩
  have hdescend := Scribe.ofMetered_eq (d := d) (Metered.descend_error (by omega))
  exact Settles.bind_error (.of_eq fun _ => hdescend)

/-- Going a level deeper fails at the limit, and otherwise the level is left again. -/
theorem nested (h : k < Limit.evaluationDepth.max → Reduces u b (k + 1)) :
    Reduces (fun n => Scribe.nested (u n)) (Metered.nested b) k := by
  by_cases hk : k < Limit.evaluationDepth.max
  · obtain ⟨o, hb, hu⟩ := h hk
    refine ⟨o, fun s hs => ?_, fun d hd => ?_⟩
    · have hinner : b { s with depth := s.depth + 1 } = (o, { s with depth := s.depth + 1 }) :=
        hb _ (by simp [hs])
      rw [Metered.nested, Metered.descend_ok (by omega)]
      dsimp only
      rw [hinner]
      rfl
    · have hdescend := Scribe.ofMetered_eq (d := d) (Metered.descend_ok (by omega))
      have hinner := (hu
        (d.withSession { d.writer.session with depth := d.writer.session.depth + 1 })
        (by simp [Desk.withSession, hd])).attempt
      -- The level is left whether the work on it failed or not.
      refine Settles.bind (.of_eq fun _ => hdescend) (hinner.bind ?_)
      refine Settles.bind (.of_eq fun _ => Scribe.ofMetered_eq rfl) (.of_eq fun _ => ?_)
      cases o <;> rfl
  · obtain ⟨o, ho, hu⟩ := tooDeep (u := u) (Nat.le_of_not_lt hk)
    refine ⟨o, fun s hs => ?_, hu⟩
    rw [Metered.nested, Metered.descend_error (by omega)]
    exact ho s hs

end Reduces

section Values

variable {functions : FunctionTable} {scope : Scope} {k : Nat}

/-- The levels that are left do not matter as long as they reach the limit. -/
theorem reduces_evaluate {left : Nat} (hleft : Limit.evaluationDepth.max ≤ k + left)
    (v : Value) :
    Reduces (fun n => Scribe.evaluate functions scope n v) (evaluateIn functions scope left v)
      k := by
  induction left generalizing k v with
  | zero => exact .step (.tooDeep hleft) fun _ => rfl
  | succ left ih =>
    have hdeeper : ∀ v, Reduces (fun n => Scribe.evaluate functions scope n v)
        (evaluateIn functions scope left v) (k + 1) := ih (by omega)
    exact .step (.nested fun _ => Reduces.congruence.evaluateBy hdeeper v) fun _ => rfl

theorem evaluationDepth_le_levels (k : Nat) : Limit.evaluationDepth.max ≤ k + levels := by
  unfold levels
  omega

theorem reduces_resolve {left : Nat} (hleft : Limit.evaluationDepth.max ≤ k + left)
    (v : Value) :
    Reduces (fun n => Scribe.resolve functions scope n v) (resolveIn functions scope left v) k := by
  induction left generalizing k v with
  | zero => exact .step (.tooDeep hleft) fun _ => rfl
  | succ left ih =>
    have hdeeper : ∀ v, Reduces (fun n => Scribe.resolve functions scope n v)
        (resolveIn functions scope left v) (k + 1) := ih (by omega)
    have hevaluate : ∀ v, Reduces (fun n => Scribe.evaluate functions scope n v)
        (evaluate functions scope v) (k + 1) :=
      reduces_evaluate (evaluationDepth_le_levels _)
    exact .step (.nested fun _ => Reduces.congruence.resolveBy hevaluate hdeeper v) fun _ => rfl

end Values

end Stylesheet
