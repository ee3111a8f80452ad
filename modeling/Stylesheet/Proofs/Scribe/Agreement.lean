import Stylesheet.Proofs.Scribe.Runs

/-!
# Agreement of a scribe with work that counts its room

The counters of a session bound what a scribe does, and besides the registries they are all that its
outcome hangs on: two runs that look up the same mixins and exceed only limits of counters that are
the same have the same outcome.

* `Accounted`: the deeds that the counters of two sessions allow.
* `Common`, `Deed.IsNeutral`: what two runs share, and the deeds that turn out the same in both.
* `Agrees`: the relation, with one closure lemma for each way in which work is put together.
-/

namespace Stylesheet

/-! ## Counters -/

namespace Session

/-- What a session has counted. -/
def used (s : Session) : Counter → Nat
  | .includes => s.includes
  | .imports => s.imports
  | .nodes => s.nodes

/-- The session with one more counted. -/
def bump (s : Session) : Counter → Session
  | .includes => { s with includes := s.includes + 1 }
  | .imports => { s with imports := s.imports + 1 }
  | .nodes => { s with nodes := s.nodes + 1 }

theorem used_bump (s : Session) (c c' : Counter) :
    (s.bump c).used c' = s.used c' + if c' = c then 1 else 0 := by
  cases c <;> cases c' <;> rfl

theorem depth_bump (s : Session) (c : Counter) : (s.bump c).depth = s.depth := by
  cases c <;> rfl

/-- A session that counted at most as much as another, at the same depth. -/
structure Below (s t : Session) : Prop where
  used : ∀ c, s.used c ≤ t.used c
  depth : s.depth = t.depth

theorem Below.refl (s : Session) : s.Below s := ⟨fun _ => le_refl _, rfl⟩

theorem Below.trans {s t u : Session} (h : s.Below t) (h' : t.Below u) : s.Below u :=
  ⟨fun c => (h.used c).trans (h'.used c), h.depth.trans h'.depth⟩

theorem Below.includes {s t : Session} (h : s.Below t) : s.includes ≤ t.includes :=
  h.used .includes

theorem Below.bump {s t : Session} (h : s.Below t) (c : Counter) : (s.bump c).Below (t.bump c) := by
  refine ⟨fun c' => ?_, ?_⟩
  · rw [used_bump, used_bump]
    have := h.used c'
    omega
  · rw [depth_bump, depth_bump]
    exact h.depth

theorem below_bump (s : Session) (c : Counter) : s.Below (s.bump c) := by
  refine ⟨fun c' => ?_, (depth_bump s c).symm⟩
  rw [used_bump]
  omega

end Session

theorem tally_append (c : Counter) (deeds more : List Deed) :
    tally c (deeds ++ more) = tally c deeds + tally c more := List.countP_append

/-- The counters only grow, and as long as they are within their limits they grow by at least one
for everything that they bound. -/
structure Accounted (s : Session) (deeds : List Deed) (t : Session) : Prop where
  below : s.Below t
  tally_le : ∀ c, tally c deeds + min (s.used c) c.limit.max ≤ min (t.used c) c.limit.max

namespace Accounted

variable {s t u : Session} {deeds more : List Deed}

/-- Deeds that no counter bounds. -/
theorem still (s : Session) (h : ∀ c, tally c deeds = 0) : Accounted s deeds s :=
  ⟨.refl s, fun c => by rw [h, Nat.zero_add]⟩

theorem nil (s : Session) : Accounted s [] s := .still s fun _ => rfl

theorem append (h : Accounted s deeds t) (h' : Accounted t more u) :
    Accounted s (deeds ++ more) u := by
  refine ⟨h.below.trans h'.below, fun c => ?_⟩
  have h₁ := h.tally_le c
  have h₂ := h'.tally_le c
  rw [tally_append]
  omega

theorem bump (s : Session) (c : Counter) (h : ∀ c, tally c deeds = 0) :
    Accounted s deeds (s.bump c) := by
  refine ⟨s.below_bump c, fun c' => ?_⟩
  rw [h, Session.used_bump]
  omega

/-- One deed that a counter within its limit bounds. -/
theorem bump_one {c : Counter} (hlimit : s.used c < c.limit.max)
    (h : ∀ c', tally c' deeds = if c' = c then 1 else 0) : Accounted s deeds (s.bump c) := by
  refine ⟨s.below_bump c, fun c' => ?_⟩
  rw [h, Session.used_bump]
  by_cases hc : c' = c
  · subst hc
    simp only [if_true]
    omega
  · simp [hc]

end Accounted

/-! ## Agreement -/

/-- What two runs have in common: the names of mixins that are the same in their registries, the
counters that are the same in their sessions, and the paths of documents that are the same for their
resolvers. -/
structure Common where
  mixin : String → Prop
  counter : Counter → Prop
  path : String → Prop

/-- What a run has in common with itself. -/
def Common.all : Common := ⟨fun _ => True, fun _ => True, fun _ => True⟩

/-- Deeds that turn out the same in two runs, the second of which has counted less. -/
def Deed.IsNeutral (common : Common) : Deed → Prop
  | .asked path => common.path path
  | .lookedUp name => common.mixin name
  | .exceeded counter => common.counter counter
  | _ => True

/-- A session that counted less than another, but as much where the counter is common. -/
structure Common.Trails (common : Common) (s s₀ : Session) : Prop where
  below : s₀.Below s
  used_eq : ∀ c, common.counter c → s₀.used c = s.used c

theorem Common.Trails.refl (common : Common) (s : Session) : common.Trails s s :=
  ⟨.refl s, fun _ _ => rfl⟩

theorem Common.Trails.bump {common : Common} {s s₀ : Session} (h : common.Trails s s₀)
    (c : Counter) : common.Trails (s.bump c) (s₀.bump c) := by
  refine ⟨h.below.bump c, fun c' hc => ?_⟩
  rw [Session.used_bump, Session.used_bump, h.used_eq c' hc]

/-- Registries in which the common mixins are the same. -/
def Common.SameMixins (common : Common) (layers layers₀ : List Registry) : Prop :=
  ∀ name, common.mixin name → Registry.find? layers₀ name = Registry.find? layers name

/-- The desk after some counting and some deeds. -/
def Desk.after (d : Desk) (session : Session) (deeds : List Deed) : Desk :=
  { d with writer := { d.writer with session }, history := d.history ++ deeds }

theorem Desk.after_after (d : Desk) (s t : Session) (deeds more : List Deed) :
    (d.after s deeds).after t more = d.after t (deeds ++ more) := by
  simp [Desk.after]

theorem Desk.after_nil {d : Desk} {s : Session} (h : d.writer.session = s) : d.after s [] = d := by
  simp [Desk.after, ← h]

section Agreement

variable (common : Common) (layers : List Registry) {α β : Type}

/-- Work of a scribe and work that counts its room agree: the scribe ends with the outcome and the
session of the other, its deeds are accounted for, and if they are neutral then other registries and
a session that counted less give the same outcome. -/
structure Agreement (u : Nat → Scribe α) (b : List Registry → Metered α) (s : Session)
    (o : Except CompileError α) (t : Session) (deeds : List Deed) : Prop where
  bounded : b layers s = (o, t)
  settles : ∀ d : Desk, d.writer.session = s → Settles u d (o, d.after t deeds)
  accounted : Accounted s deeds t
  shadowed : (∀ deed ∈ deeds, deed.IsNeutral common) →
    ∀ layers₀, common.SameMixins layers layers₀ → ∀ s₀ : Session, common.Trails s s₀ →
      ∃ t₀ : Session, common.Trails t t₀ ∧ b layers₀ s₀ = (o, t₀)

def Agrees (u : Nat → Scribe α) (b : List Registry → Metered α) (s : Session) : Prop :=
  ∃ o t deeds, Agreement common layers u b s o t deeds

variable {common layers} {u : Nat → Scribe α} {b : List Registry → Metered α} {s : Session}
  {next : Nat → α → Scribe β} {g : α → List Registry → Metered β}

theorem Reduces.agrees {b : Metered α} (h : Reduces u b s.depth) :
    Agrees common layers u (fun _ => b) s := by
  obtain ⟨o, hb, hu⟩ := h
  refine ⟨o, s, [], hb s rfl, fun d hd => ?_, .nil s,
    fun _ _ _ s₀ hs => ⟨s₀, hs, hb s₀ hs.below.depth⟩⟩
  rw [Desk.after_nil hd]
  exact hu d (by rw [hd])

namespace Agrees

theorem pure (a : α) (s : Session) :
    Agrees common layers (fun _ => Pure.pure a) (fun _ => Pure.pure a) s :=
  (Reduces.pure a s.depth).agrees

theorem step {v : Nat → Scribe α} (h : Agrees common layers v b s) (hu : ∀ n, u (n + 1) = v n) :
    Agrees common layers u b s := by
  obtain ⟨o, t, deeds, h⟩ := h
  exact ⟨o, t, deeds, h.bounded, fun d hd => (h.settles d hd).step fun n => by rw [hu],
    h.accounted, h.shadowed⟩

theorem bind (h : Agrees common layers u b s)
    (hnext : ∀ a t, b layers s = (.ok a, t) → s.Below t →
      Agrees common layers (fun n => next n a) (g a) t) :
    Agrees common layers (fun n => u n >>= next n) (fun ls => b ls >>= fun a => g a ls) s := by
  obtain ⟨o, t, deeds, h⟩ := h
  cases o with
  | error e =>
    refine ⟨.error e, t, deeds, work_bind_error h.bounded, fun d hd => (h.settles d hd).bind_error,
      h.accounted, fun hneutral ls hls s₀ hs => ?_⟩
    obtain ⟨t₀, ht, hb⟩ := h.shadowed hneutral ls hls s₀ hs
    exact ⟨t₀, ht, work_bind_error hb⟩
  | ok a =>
    obtain ⟨o, t', more, h'⟩ := hnext a t h.bounded h.accounted.below
    refine ⟨o, t', deeds ++ more, ?_, fun d hd => ?_, h.accounted.append h'.accounted,
      fun hneutral ls hls s₀ hs => ?_⟩
    · exact (work_bind_ok h.bounded).trans h'.bounded
    · have hrest := h'.settles (d.after t deeds) rfl
      rw [Desk.after_after] at hrest
      exact (h.settles d hd).bind hrest
    · rw [List.forall_mem_append] at hneutral
      obtain ⟨t₀, ht, hb⟩ := h.shadowed hneutral.1 ls hls s₀ hs
      obtain ⟨t₀', ht', hb'⟩ := h'.shadowed hneutral.2 ls hls t₀ ht
      exact ⟨t₀', ht', (work_bind_ok hb).trans hb'⟩

/-- Work that agrees with that of a scribe only ever counts more. -/
theorem below (h : Agrees common layers u b s) {o : Except CompileError α} {t : Session}
    (ht : b layers s = (o, t)) : s.Below t := by
  obtain ⟨o', t', deeds, h⟩ := h
  have heq : (o', t') = (o, t) := h.bounded.symm.trans ht
  cases heq
  exact h.accounted.below

/-- A count above its limit ends both with the same error. -/
theorem exceeded {c : Counter} {e : CompileError} (hs : c.limit.max ≤ s.used c)
    (hb : ∀ ls (s : Session), c.limit.max ≤ s.used c → b ls s = (.error e, s.bump c))
    (hu : ∀ d : Desk, d.writer.session = s →
      Settles u d (.error e, d.after (s.bump c) [.exceeded c])) : Agrees common layers u b s := by
  refine ⟨.error e, s.bump c, [.exceeded c], hb layers s hs, hu, .bump s c fun _ => rfl, ?_⟩
  intro hneutral ls _ s₀ hs₀
  -- A session that counted less may still be within the limit, so the counter has to be common.
  have hused := hs₀.used_eq c (hneutral _ List.mem_cons_self)
  exact ⟨s₀.bump c, hs₀.bump c, hb ls s₀ (by omega)⟩

/-- A loop agrees if its body does from every session that counted at least as much. -/
theorem foldlM {ι : Type} {f : Nat → α → ι → Scribe α} {g : List Registry → α → ι → Metered α}
    {bound : Nat} (h : ∀ a i t, bound ≤ t.includes →
      Agrees common layers (fun n => f n a i) (fun ls => g ls a i) t)
    (items : List ι) (a : α) (hs : bound ≤ s.includes) :
    Agrees common layers (fun n => items.foldlM (f n) a) (fun ls => items.foldlM (g ls) a) s := by
  induction items generalizing a s with
  | nil => exact .pure a s
  | cons i items ih =>
    simp only [List.foldlM_cons]
    exact (h a i s hs).bind fun a t _ hst => ih a (hs.trans hst.includes)

end Agrees

end Agreement

/-! ## Counting -/

/-- Work that counts once and fails above the limit. -/
structure Counts (count : Metered Unit) (c : Counter) : Prop where
  ok : ∀ s : Session, s.used c < c.limit.max → count s = (.ok (), s.bump c)
  error : ∃ e, ∀ s : Session, c.limit.max ≤ s.used c → count s = (.error e, s.bump c)

theorem counts_of_check {count : Metered Unit} {c : Counter} {detail : String}
    (h : ∀ s, count s = Metered.check c.limit ((s.bump c).used c) detail (s.bump c)) :
    Counts count c := by
  have hused : ∀ s : Session, (s.bump c).used c = s.used c + 1 := by
    intro s
    rw [Session.used_bump, if_pos rfl]
  refine ⟨fun s hs => ?_, .limitExceeded c.limit detail, fun s hs => ?_⟩
  · rw [h, Metered.check, hused, if_neg (by omega)]
    rfl
  · rw [h, Metered.check, hused, if_pos (by omega)]
    rfl

theorem counts_countInclude (name : String) : Counts (Metered.countInclude name) .includes :=
  counts_of_check fun _ => rfl

theorem counts_countImport (path : String) : Counts (Metered.countImport path) .imports :=
  counts_of_check fun _ => rfl

theorem counts_countNode : Counts Metered.countNode .nodes := counts_of_check fun _ => rfl

section Counted

variable {count : Metered Unit} {c : Counter} {deed : Deed} {d : Desk}

theorem Scribe.counted_ok {s : Session} (h : count d.writer.session = (.ok (), s)) :
    counted count c deed d = some (.ok (), d.after s [deed]) := by
  rw [counted, bind_ok (attempt_eq (ofMetered_eq h))]
  rfl

theorem Scribe.counted_error {s : Session} {e : CompileError}
    (h : count d.writer.session = (.error e, s)) :
    counted count c deed d = some (.error e, d.after s [.exceeded c]) := by
  rw [counted, bind_ok (attempt_eq (ofMetered_eq h))]
  rfl

/-- Something that is counted and then done agrees with the count. -/
theorem agrees_counted {common : Common} {layers : List Registry} {s : Session}
    (h : Counts count c) (hdeed : deed.counter? = some c) :
    Agrees common layers (fun _ => Scribe.counted count c deed) (fun _ => count) s := by
  by_cases hlimit : s.used c < c.limit.max
  · have hs := h.ok s hlimit
    refine ⟨.ok (), s.bump c, [deed], hs, fun d hd => .of_eq fun _ => ?_,
      .bump_one hlimit fun c' => ?_, fun _ _ _ s₀ hs₀ => ?_⟩
    · subst hd
      exact Scribe.counted_ok hs
    · simp [tally, List.countP_cons, hdeed, eq_comm]
    · have hused := hs₀.below.used c
      exact ⟨s₀.bump c, hs₀.bump c, h.ok s₀ (by omega)⟩
  · obtain ⟨e, herror⟩ := h.error
    have hs := Nat.le_of_not_lt hlimit
    refine .exceeded hs (fun _ => herror) fun d hd => .of_eq fun _ => ?_
    subst hd
    exact Scribe.counted_error (herror _ hs)

end Counted

end Stylesheet
