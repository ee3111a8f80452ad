import Stylesheet.Proofs.Scribe.Containment

/-!
# Levels of evaluation are left again

A value is evaluated one level deeper than what it is a part of, and the level is left whatever
comes of the value. So the session after an evaluation is the one before it, and no document leaves
a level open either, whether it is written or fails.

What happens in between is told by a watch. It does the same work, and notes each value that is
evaluated and the depth at which that is done.

* `Watch`, `Watched`: a session with such notes, and work on it.
* `Watches`: watched work that does what other work does, and stays within the limit.
* `watches_evaluateIn`, `watches_resolveIn`: both ways to reduce a value.
* `evaluation_is_balanced`: evaluation, documents and imports leave the depth as it was.
-/

namespace Stylesheet

/-- A session, and the values that were evaluated so far with the depth of each. -/
structure Watch where
  session : Session
  notes : List (Nat × Value) := []

abbrev Watched := ExceptT CompileError (StateM Watch)

namespace Watched

variable {α : Type}

/-- Evaluates a value one level deeper. A note is made once the level is entered. -/
def nested (v : Value) (work : Watched α) : Watched α := fun w =>
  match Metered.descend w.session with
  | (.error e, s) => (.error e, { w with session := s })
  | (.ok _, s) =>
    let (outcome, w) := work { session := s, notes := w.notes ++ [(s.depth, v)] }
    (outcome, { w with session := (Metered.ascend w.session).2 })

variable (functions : FunctionTable) (scope : Scope)

def evaluateIn : Nat → Value → Watched Value
  | 0, _ => throw (.limitExceeded .evaluationDepth "")
  | n + 1, v => nested v (evaluateBy functions scope (evaluateIn n) v)

def evaluate (v : Value) : Watched Value := evaluateIn functions scope levels v

def arguments (v : Value) : Watched (List Value) := argumentsBy (evaluate functions scope) v

def call (name : String) (args : Value) : Watched Value :=
  callBy functions (evaluate functions scope) name args

def evaluateNumber (v : Value) : Watched Float := do
  let v ← evaluate functions scope v
  MonadExcept.ofExcept v.asNumber

def resolveIn : Nat → Value → Watched Value
  | 0, _ => throw (.limitExceeded .evaluationDepth "")
  | n + 1, v =>
    nested v (resolveBy functions scope (evaluate functions scope) (resolveIn n) v)

def resolve (v : Value) : Watched Value := resolveIn functions scope levels v

end Watched

/-! ## Watched work -/

/-- The watched work comes to the same as the other, which leaves the session as it was; what it
notes is deeper than the session, but not beyond the limit. -/
def Watches {α : Type} (u : Watched α) (b : Metered α) : Prop :=
  ∀ s : Session, ∃ o notes, b s = (o, s) ∧
    (∀ earlier, u ⟨s, earlier⟩ = (o, ⟨s, earlier ++ notes⟩)) ∧
    ∀ note ∈ notes, s.depth < note.1 ∧ note.1 ≤ Limit.evaluationDepth.max

namespace Watches

variable {α β : Type} {u : Watched α} {b : Metered α} {next : α → Watched β} {g : α → Metered β}

theorem pure (a : α) : Watches (Pure.pure a) (Pure.pure a) :=
  fun s => ⟨.ok a, [], rfl, fun earlier => by rw [List.append_nil]; rfl, by simp⟩

theorem throw (e : CompileError) :
    Watches (α := α) (MonadExcept.throw e) (MonadExcept.throw e) :=
  fun s => ⟨.error e, [], rfl, fun earlier => by rw [List.append_nil]; rfl, by simp⟩

theorem ofExcept (o : Except CompileError α) :
    Watches (MonadExcept.ofExcept o) (Metered.ofExcept o) := by
  cases o with
  | ok a => exact .pure a
  | error e => exact .throw e

theorem bind (h : Watches u b) (hnext : ∀ a, Watches (next a) (g a)) :
    Watches (u >>= next) (b >>= g) := by
  intro s
  obtain ⟨o, notes, hb, hu, hnotes⟩ := h s
  cases o with
  | error e => exact ⟨.error e, notes, work_bind_error hb, fun _ => work_bind_error (hu _), hnotes⟩
  | ok a =>
    obtain ⟨o, more, hg, hv, hmore⟩ := hnext a s
    refine ⟨o, notes ++ more, (work_bind_ok hb).trans hg, fun earlier => ?_, ?_⟩
    · rw [work_bind_ok (hu earlier), hv, List.append_assoc]
    · rw [List.forall_mem_append]
      exact ⟨hnotes, hmore⟩

theorem congruence :
    Congruence fun α (u : Unit → Watched α) (b : Metered α) => Watches (u ()) b :=
  ⟨ofExcept, fun h hnext => h.bind hnext⟩

/-- Either the level is not entered, or it is left again. -/
theorem nested (v : Value) (h : Watches u b) : Watches (Watched.nested v u) (Metered.nested b) := by
  intro s
  by_cases hdepth : s.depth < Limit.evaluationDepth.max
  · obtain ⟨o, notes, hb, hu, hnotes⟩ := h { s with depth := s.depth + 1 }
    refine ⟨o, (s.depth + 1, v) :: notes, ?_, fun earlier => ?_, ?_⟩
    · rw [Metered.nested, Metered.descend_ok hdepth]
      dsimp only
      rw [hb]
      rfl
    · rw [Watched.nested, Metered.descend_ok hdepth]
      dsimp only
      rw [hu, List.append_assoc]
      rfl
    · rw [List.forall_mem_cons]
      refine ⟨⟨Nat.lt_succ_self _, hdepth⟩, fun note hnote => ?_⟩
      obtain ⟨hlt, hle⟩ := hnotes note hnote
      exact ⟨Nat.lt_of_succ_lt hlt, hle⟩
  · have hdescend := Metered.descend_error (Nat.le_of_not_lt hdepth)
    refine ⟨.error (.limitExceeded .evaluationDepth ""), [], ?_, fun earlier => ?_, by simp⟩
    · rw [Metered.nested, hdescend]
    · rw [Watched.nested, hdescend, List.append_nil]

end Watches

section Values

variable (functions : FunctionTable) (scope : Scope)

theorem watches_evaluateIn (n : Nat) (v : Value) :
    Watches (Watched.evaluateIn functions scope n v) (evaluateIn functions scope n v) := by
  induction n generalizing v with
  | zero => exact .throw _
  | succ n ih =>
    exact .nested v (Watches.congruence.evaluateBy (f := fun _ => _) ih v)

example : (Watched.evaluate .empty {} (.binary (.boolean true) .add (.boolean false))
    ⟨{ depth := 4 }, []⟩).2.notes.map Prod.fst = [5, 6, 6] := by
  decide

theorem watches_resolveIn (n : Nat) (v : Value) :
    Watches (Watched.resolveIn functions scope n v) (resolveIn functions scope n v) := by
  have hevaluate := watches_evaluateIn functions scope levels
  induction n generalizing v with
  | zero => exact .throw _
  | succ n ih =>
    exact .nested v
      (Watches.congruence.resolveBy (f := fun _ => _) (k := fun _ => _) hevaluate ih v)

end Values

/-! ## Documents -/

section Documents

variable {context : Context} {resolver : Option Resolver} {w : Writer}

theorem AgreesOnItem.depth_eq {u : Nat → Scribe Unit} {b : Option Resolver → Writing String}
    (h : AgreesOnItem context .all resolver u b w) :
    (b resolver w).2.session.depth = w.session.depth := by
  obtain ⟨o, w', deeds, h⟩ := h
  rw [h.bounded]
  exact h.accounted.below.depth.symm

theorem depth_documentIn {n : Nat} (hroom : Limit.imports.max ≤ w.session.imports + n)
    (path : String) (nodes : List Node) (scope : Scope) :
    (documentIn context resolver n path nodes scope w).2.session.depth = w.session.depth :=
  AgreesOnItem.depth_eq (b := fun r => documentIn context r n path nodes scope)
    (agrees_documentIn hroom path nodes scope)

theorem depth_importItem {n : Nat} (hroom : Limit.imports.max ≤ w.session.imports + n)
    (url : String) (scope : Scope) :
    (importItem resolver (documentIn context resolver n) url scope w).2.session.depth =
      w.session.depth :=
  AgreesOnItem.depth_eq (b := fun r => liftM (importItem r (documentIn context r n) url scope))
    (agrees_import (fun _ _ _ => agrees_documentIn hroom _ _ _) url scope)

end Documents

/-! ## Balance -/

/-- From a session, some work leaves it as it was, whether it fails or not, and evaluates no value
beyond the limit. -/
structure Balanced {α : Type} (u : Watched α) (b : Metered α) (s : Session) : Prop where
  session_eq : (b s).2 = s
  outcome_eq : (u ⟨s, []⟩).1 = (b s).1
  depth_le : ∀ note ∈ (u ⟨s, []⟩).2.notes, note.1 ≤ Limit.evaluationDepth.max

theorem Watches.balanced {α : Type} {u : Watched α} {b : Metered α} (h : Watches u b)
    (s : Session) : Balanced u b s := by
  obtain ⟨o, notes, hb, hu, hnotes⟩ := h s
  refine ⟨by rw [hb], by rw [hb, hu], ?_⟩
  rw [hu, List.nil_append]
  exact fun note hnote => (hnotes note hnote).2

/-- Every way to reduce a value leaves the session as it was, its depth and its counts, whatever
comes of it, and evaluates nothing deeper than the limit. So a document that is written or fails,
and an import whatever becomes of its document, leave the depth as it was. -/
theorem evaluation_is_balanced (functions : FunctionTable) (scope : Scope) :
    (∀ (s : Session) (v : Value) (name : String),
      Balanced (Watched.evaluate functions scope v) (evaluate functions scope v) s ∧
      Balanced (Watched.call functions scope name v) (call functions scope name v) s ∧
      Balanced (Watched.arguments functions scope v) (arguments functions scope v) s ∧
      Balanced (Watched.evaluateNumber functions scope v) (evaluateNumber functions scope v) s ∧
      Balanced (Watched.resolve functions scope v) (resolve functions scope v) s) ∧
    ∀ (context : Context) (resolver : Option Resolver) (w : Writer),
      (∀ sheet, (writeDocument context resolver sheet w).2.session.depth = w.session.depth) ∧
      ∀ url n, Limit.imports.max ≤ w.session.imports + n →
        (importItem resolver (documentIn context resolver n) url scope w).2.session.depth =
          w.session.depth := by
  have hevaluate := watches_evaluateIn functions scope levels
  refine ⟨fun s v name => ⟨(hevaluate v).balanced s, ?_, ?_, ?_, ?_⟩, fun context resolver w => ?_⟩
  · exact Watches.balanced (Watches.congruence.callBy (f := fun _ => _) fun _ v _ => hevaluate v) s
  · exact Watches.balanced
      (Watches.congruence.argumentsBy (f := fun _ => _) v fun v _ => hevaluate v) s
  · exact ((hevaluate v).bind fun r => .ofExcept r.asNumber).balanced s
  · exact (watches_resolveIn functions scope levels v).balanced s
  · refine ⟨fun sheet => ?_, fun url n hroom => depth_importItem hroom url scope⟩
    exact depth_documentIn (Nat.le_add_left _ _) _ _ _

/-- An imported document that fails, at a session that is three levels deep. -/
theorem brokenPartial_is_balanced :
    Limit.imports.max ≤ (0 : Nat) + 200 ∧
    (readDocument (documentIn {} (some brokenPartial) 200) "p.scss" "@mixin m\x7b\x7d@include n;" {}
      { session := { depth := 3 } }).1 = .error (.mixinNotRegistered "n") ∧
    (importItem (some brokenPartial) (documentIn {} (some brokenPartial) 200) "/p.scss" {}
      { session := { depth := 3 } }).2.session.depth = 3 := by
  have hfails : readDocument (documentIn {} (some brokenPartial) 200) "p.scss"
      "@mixin m\x7b\x7d@include n;" {} { session := { depth := 3 } } = _ :=
    brokenPartial_fails _ (by decide) (by decide) (Table.get?_empty _)
  refine ⟨by decide, congrArg Prod.fst hfails, ?_⟩
  exact ((evaluation_is_balanced .empty {}).2 {} (some brokenPartial)
    { session := { depth := 3 } }).2 "/p.scss" 200 (by decide)

end Stylesheet
