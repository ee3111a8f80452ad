import Stylesheet.Proofs.Mixin.Renaming

/-!
# Expansion is complete

Expanding a list of nodes leaves no inclusion, at the top or in nested style rules. What comes out
is told by a relation that knows neither sessions nor limits; it counts the bodies that are spliced
in, and those are what a session counts.

* `Expansion`: what nodes expand to, with the number of bodies.
* `Expansion.containsInclude_eq_false`: no inclusion is left.
* `Encounters`, `Inclusion.Raises`: the inclusions that are come upon, and how one of them fails.
* `expandIncludes_outcome`: the outcome of expanding, for every session.
-/

namespace Stylesheet

/-! ## Lists of nodes -/

/-- Neither an inclusion nor a style rule. -/
def Node.IsKept : Node → Prop
  | .inclusion _ => False
  | .block (.style _ _) _ => False
  | _ => True

/-- Induction over nodes as expansion goes through them. -/
theorem nodes_induction {P : List Node → Prop} (nil : P [])
    (inclusion : ∀ i rest, P rest → P (.inclusion i :: rest))
    (style : ∀ selector depth body rest, P body → P rest →
      P (.block (.style selector depth) body :: rest))
    (keep : ∀ node rest, node.IsKept → P rest → P (node :: rest)) (nodes : List Node) :
    P nodes := by
  refine spliceNodes.induct (fun node => ∀ rest, P rest → P (node :: rest)) P inclusion ?_ ?_ nil ?_
    nodes
  · intro selector depth body hbody rest hrest
    exact style selector depth body rest hbody hrest
  · intro node hinclusion hstyle rest hrest
    refine keep node rest ?_ hrest
    unfold Node.IsKept
    split
    · exact hinclusion _ rfl
    · exact hstyle _ _ _ rfl
    · trivial
  · intro node rest hnode hrest
    exact hnode rest hrest

section Splice

variable (expand : Inclusion → Metered (List Node))

theorem spliceNodes_inclusion (i : Inclusion) (rest : List Node) :
    spliceNodes expand (.inclusion i :: rest) = do
      let body ← expand i
      return body ++ (← spliceNodes expand rest) := by
  rw [spliceNodes, spliceNode]

theorem spliceNodes_style (selector : Selector) (depth : Nat) (body rest : List Node) :
    spliceNodes expand (.block (.style selector depth) body :: rest) = do
      let body ← spliceNodes expand body
      return .block (.style selector depth) body :: (← spliceNodes expand rest) := by
  rw [spliceNodes, spliceNode, bind_assoc]
  rfl

theorem spliceNodes_of_isKept {node : Node} (hnode : node.IsKept) (rest : List Node) :
    spliceNodes expand (node :: rest) = do return node :: (← spliceNodes expand rest) := by
  have hsplice : spliceNode expand node = pure [node] := by
    unfold Node.IsKept at hnode
    split at hnode
    · exact hnode.elim
    · exact hnode.elim
    · rename_i hinclusion hstyle
      rw [spliceNode]
      · exact hinclusion
      · exact hstyle
  rw [spliceNodes, hsplice, pure_bind]
  rfl

end Splice

/-! ## Expansions -/

/-- What nodes expand to, and how many bodies of mixins are spliced in, the bodies in bodies
included. -/
inductive Expansion (layers : List Registry) (scope : Scope) :
    List Node → List Node → Nat → Prop
  | nil : Expansion layers scope [] [] 0
  | inclusion {i : Inclusion} {copy body rest out : List Node} {k n : Nat}
      (hcopy : mixinBody layers scope i = .ok copy) (hbody : Expansion layers scope copy body k)
      (hrest : Expansion layers scope rest out n) :
      Expansion layers scope (.inclusion i :: rest) (body ++ out) (1 + k + n)
  | style {selector : Selector} {depth : Nat} {inner body rest out : List Node} {k n : Nat}
      (hbody : Expansion layers scope inner body k) (hrest : Expansion layers scope rest out n) :
      Expansion layers scope (.block (.style selector depth) inner :: rest)
        (.block (.style selector depth) body :: out) (k + n)
  | keep {node : Node} {rest out : List Node} {n : Nat} (hnode : node.IsKept)
      (hrest : Expansion layers scope rest out n) :
      Expansion layers scope (node :: rest) (node :: out) n

section Expansion

variable {layers : List Registry} {scope : Scope} {nodes out : List Node} {n : Nat}

theorem Node.IsKept.containsInclude {node : Node} (h : node.IsKept) :
    node.containsInclude = false := by
  unfold IsKept at h
  split at h
  · exact h.elim
  · exact h.elim
  · rename_i hinclusion hstyle
    rw [Node.containsInclude]
    · exact hinclusion
    · exact hstyle

theorem Node.anyContainsInclude_eq_false_iff (nodes : List Node) :
    anyContainsInclude nodes = false ↔ ∀ node ∈ nodes, node.containsInclude = false := by
  induction nodes with
  | nil => simp [anyContainsInclude]
  | cons node nodes ih => simp [anyContainsInclude, ih]

theorem Expansion.containsInclude_eq_false (h : Expansion layers scope nodes out n) :
    ∀ node ∈ out, node.containsInclude = false := by
  induction h with
  | nil => simp
  | inclusion _ _ _ ihbody ihrest => exact List.forall_mem_append.2 ⟨ihbody, ihrest⟩
  | style _ _ ihbody ihrest =>
    refine List.forall_mem_cons.2 ⟨?_, ihrest⟩
    rw [Node.containsInclude, Node.anyContainsInclude_eq_false_iff]
    exact ihbody
  | keep hnode _ ihrest => exact List.forall_mem_cons.2 ⟨hnode.containsInclude, ihrest⟩

/-- Without an inclusion there is nothing to do. -/
theorem expansion_self (h : ∀ node ∈ nodes, node.containsInclude = false) :
    Expansion layers scope nodes nodes 0 := by
  induction nodes using nodes_induction with
  | nil => exact .nil
  | inclusion i rest _ =>
    have hself := h _ List.mem_cons_self
    rw [Node.containsInclude] at hself
    cases hself
  | style selector depth body rest ihbody ihrest =>
    obtain ⟨hself, hrest⟩ := List.forall_mem_cons.1 h
    rw [Node.containsInclude, Node.anyContainsInclude_eq_false_iff] at hself
    exact .style (ihbody hself) (ihrest hrest)
  | keep node rest hnode ihrest => exact .keep hnode (ihrest (List.forall_mem_cons.1 h).2)

end Expansion

/-! ## Success -/

/-- The session after so many inclusions. -/
def Session.including (s : Session) (n : Nat) : Session := { s with includes := s.includes + n }

theorem Session.including_including (s : Session) (m n : Nat) :
    (s.including m).including n = s.including (m + n) := by
  simp only [including, Nat.add_assoc]

/-- So many inclusions more keep within the limit. -/
def Session.Allows (s : Session) (n : Nat) : Prop := n = 0 ∨ s.includes + n ≤ Limit.includes.max

section Success

variable {layers : List Registry} {scope : Scope} {nodes out : List Node} {s t : Session}
  {k n : Nat}

theorem Session.Allows.of_add {m : Nat} (h : s.Allows (m + n)) :
    s.Allows m ∧ (s.including m).Allows n := by
  unfold Allows including at *
  dsimp only
  omega

theorem Session.Allows.add {m : Nat} (hm : s.Allows m) (hn : (s.including m).Allows n) :
    s.Allows (m + n) := by
  unfold Allows including at *
  dsimp only at hn
  omega

theorem inclusionBody_eq (hlimit : s.includes < Limit.includes.max) (i : Inclusion) :
    inclusionBody layers scope i s = (mixinBody layers scope i, s.including 1) := by
  rw [inclusionBody, work_bind_ok ((counts_countInclude i.name).ok s hlimit), ofExcept_eq]
  rfl

/-- Every expansion comes out, if the session allows the bodies. Room for as many bodies is room for
those inside of one another. -/
theorem gives_of_expansion (h : Expansion layers scope nodes out n) (hs : s.Allows n) (hk : n ≤ k) :
    Gives (spliceNodes (expandIncludeIn layers scope k) nodes) s out (s.including n) := by
  induction h generalizing s k with
  | nil => exact gives_pure [] s
  | @inclusion i copy body rest out m n hcopy _ _ ihbody ihrest =>
    obtain ⟨hbodies, hn⟩ := hs.of_add
    obtain ⟨hone, hm⟩ := hbodies.of_add
    have hlimit : s.includes < Limit.includes.max := hone.resolve_left Nat.one_ne_zero
    obtain ⟨k, rfl⟩ : ∃ j, k = j + 1 := ⟨k - 1, by omega⟩
    have hcount : Gives (inclusionBody layers scope i) s copy (s.including 1) := by
      rw [Gives, inclusionBody_eq hlimit, hcopy]
    have hexpand := hcount.bind (ihbody hm (show m ≤ k by omega))
    rw [Session.including_including, ← expandIncludeIn_succ] at hexpand
    have hrest := ihrest hn (show n ≤ k + 1 by omega)
    rw [Session.including_including] at hrest
    rw [spliceNodes_inclusion]
    exact hexpand.bind (hrest.bind (gives_pure _ _))
  | @style selector depth inner body rest out m n _ _ ihbody ihrest =>
    obtain ⟨hm, hn⟩ := hs.of_add
    have hbody := ihbody hm (show m ≤ k by omega)
    have hrest := ihrest hn (show n ≤ k by omega)
    rw [Session.including_including] at hrest
    rw [spliceNodes_style]
    exact hbody.bind (hrest.bind (gives_pure _ _))
  | keep hnode _ ihrest =>
    rw [spliceNodes_of_isKept _ hnode]
    exact (ihrest hs hk).bind (gives_pure _ _)

/-- The step from an inclusion to a list of nodes. -/
theorem expansion_of_splice {expand : Inclusion → Metered (List Node)}
    (hexpand : ∀ i s body t, Gives (expand i) s body t → ∃ copy n,
      mixinBody layers scope i = .ok copy ∧ Expansion layers scope copy body n ∧
        s.Allows (1 + n) ∧ t = s.including (1 + n))
    (h : Gives (spliceNodes expand nodes) s out t) :
    ∃ n, Expansion layers scope nodes out n ∧ s.Allows n ∧ t = s.including n := by
  induction nodes using nodes_induction generalizing s out t with
  | nil =>
    obtain ⟨rfl, rfl⟩ := h.of_pure
    exact ⟨0, .nil, .inl rfl, rfl⟩
  | inclusion i rest ih =>
    rw [spliceNodes_inclusion] at h
    obtain ⟨body, u, hbody, h⟩ := h.of_bind
    obtain ⟨out, v, hrest, h⟩ := h.of_bind
    obtain ⟨rfl, rfl⟩ := h.of_pure
    obtain ⟨copy, m, hcopy, hexpansion, hm, rfl⟩ := hexpand i s body u hbody
    obtain ⟨n, hout, hn, rfl⟩ := ih hrest
    exact ⟨1 + m + n, .inclusion hcopy hexpansion hout, hm.add hn, s.including_including _ _⟩
  | style selector depth inner rest ihbody ihrest =>
    rw [spliceNodes_style] at h
    obtain ⟨body, u, hbody, h⟩ := h.of_bind
    obtain ⟨out, v, hrest, h⟩ := h.of_bind
    obtain ⟨rfl, rfl⟩ := h.of_pure
    obtain ⟨m, hinner, hm, rfl⟩ := ihbody hbody
    obtain ⟨n, hout, hn, rfl⟩ := ihrest hrest
    exact ⟨m + n, .style hinner hout, hm.add hn, s.including_including _ _⟩
  | keep node rest hnode ih =>
    rw [spliceNodes_of_isKept _ hnode] at h
    obtain ⟨out, u, hrest, h⟩ := h.of_bind
    obtain ⟨rfl, rfl⟩ := h.of_pure
    obtain ⟨n, hout, hn, rfl⟩ := ih hrest
    exact ⟨n, .keep hnode hout, hn, rfl⟩

theorem expansion_of_expand {i : Inclusion} {body : List Node}
    (h : Gives (expandIncludeIn layers scope k i) s body t) : ∃ copy n,
      mixinBody layers scope i = .ok copy ∧ Expansion layers scope copy body n ∧
        s.Allows (1 + n) ∧ t = s.including (1 + n) := by
  induction k generalizing i s body t with
  | zero =>
    rw [Gives, expandIncludeIn_zero] at h
    cases h
  | succ k ih =>
    rw [expandIncludeIn_succ] at h
    obtain ⟨copy, u, hcount, h⟩ := h.of_bind
    obtain ⟨hlimit, -⟩ := inclusionBody_ok hcount
    rw [Gives, inclusionBody_eq hlimit] at hcount
    obtain ⟨hcopy, rfl⟩ : mixinBody layers scope i = .ok copy ∧ s.including 1 = u :=
      Prod.mk.inj hcount
    obtain ⟨n, hexpansion, hn, rfl⟩ := expansion_of_splice (fun i s body t => ih) h
    have hone : s.Allows 1 := .inr hlimit
    exact ⟨copy, n, hcopy, hexpansion, hone.add hn, s.including_including _ _⟩

end Success

/-! ## Failure -/

/-- The inclusions that are come upon when nodes are expanded. -/
inductive Encounters (layers : List Registry) (scope : Scope) : List Node → Inclusion → Prop
  | here {nodes : List Node} {i : Inclusion} (h : .inclusion i ∈ nodes) :
      Encounters layers scope nodes i
  | style {nodes body : List Node} {selector : Selector} {depth : Nat} {i : Inclusion}
      (h : .block (.style selector depth) body ∈ nodes) (hbody : Encounters layers scope body i) :
      Encounters layers scope nodes i
  | body {nodes copy : List Node} {i j : Inclusion} (h : .inclusion j ∈ nodes)
      (hcopy : mixinBody layers scope j = .ok copy) (hbody : Encounters layers scope copy i) :
      Encounters layers scope nodes i

/-- How an inclusion itself fails, with the session after it: its mixin is not there, it is one too
many, or a variable of an argument or of a default does not resolve. -/
inductive Inclusion.Raises (layers : List Registry) (scope : Scope) (i : Inclusion) (t : Session) :
    CompileError → Prop
  | unregistered (h : Registry.find? layers i.name = none) :
      Raises layers scope i t (.mixinNotRegistered i.name)
  | exceeded (h : Limit.includes.max < t.includes) :
      Raises layers scope i t (.limitExceeded .includes i.name)
  | argument {arg : Value} {x : String} {e : CompileError} (harg : arg ∈ positional i.args)
      (hx : x ∈ arg.references) (he : scope.resolve x = .error e) : Raises layers scope i t e
  | default {m : Mixin} {param : Parameter} {v : Value} {bindings : Scope} {x : String}
      {e : CompileError} (hm : Registry.find? layers i.name = some m) (hparam : param ∈ m.params)
      (hv : param.default = some v) (hbindings : bindings.outer = scope.frames)
      (hx : x ∈ v.references) (he : bindings.resolve x = .error e) : Raises layers scope i t e

section Failure

variable {layers : List Registry} {scope : Scope} {nodes : List Node} {i : Inclusion}
  {s t : Session} {e : CompileError} {k : Nat}

theorem Encounters.of_subset {nodes' : List Node} (h : Encounters layers scope nodes i)
    (hsubset : nodes ⊆ nodes') : Encounters layers scope nodes' i := by
  cases h with
  | here h => exact .here (hsubset h)
  | style h hbody => exact .style (hsubset h) hbody
  | body h hcopy hbody => exact .body (hsubset h) hcopy hbody

theorem except_error_of_bind {α β : Type} {x : Except CompileError α}
    {next : α → Except CompileError β} (h : (x >>= next) = .error e) :
    x = .error e ∨ ∃ a, x = .ok a ∧ next a = .error e := by
  cases x with
  | error e' =>
    cases h
    exact .inl rfl
  | ok a => exact .inr ⟨a, rfl, h⟩

mutual

theorem Value.mapReferences_error : (v : Value) →
    v.mapReferences (fun name => some <$> scope.resolve name) = .error e →
    ∃ x ∈ v.references, scope.resolve x = .error e
  | .reference name, h => by
    refine ⟨name, List.mem_singleton_self name, ?_⟩
    exact Value.resolveReferences_reference.symm.trans h
  | .list items _, h => by
    obtain h | ⟨_, -, h⟩ := except_error_of_bind h
    · exact mapAllReferences_error items h
    · cases h
  | .call _ args, h => by
    obtain h | ⟨_, -, h⟩ := except_error_of_bind h
    · exact mapReferences_error args h
    · cases h
  | .binary left _ right, h => by
    obtain h | ⟨_, -, h⟩ := except_error_of_bind h
    · obtain ⟨x, hx, he⟩ := mapReferences_error left h
      exact ⟨x, List.mem_append_left _ hx, he⟩
    · obtain h | ⟨_, -, h⟩ := except_error_of_bind h
      · obtain ⟨x, hx, he⟩ := mapReferences_error right h
        exact ⟨x, List.mem_append_right _ hx, he⟩
      · cases h
  | .joined parts, h => by
    obtain h | ⟨_, -, h⟩ := except_error_of_bind h
    · exact mapAllReferences_error parts h
    · cases h
  | .quantity _, h => by cases h
  | .literal _, h => by cases h
  | .boolean _, h => by cases h
  | .undefined _, h => by cases h

theorem Value.mapAllReferences_error : (vs : List Value) →
    Value.mapAllReferences (fun name => some <$> scope.resolve name) vs = .error e →
    ∃ x ∈ Value.allReferences vs, scope.resolve x = .error e
  | [], h => by cases h
  | v :: vs, h => by
    obtain h | ⟨_, -, h⟩ := except_error_of_bind h
    · obtain ⟨x, hx, he⟩ := mapReferences_error v h
      exact ⟨x, List.mem_append_left _ hx, he⟩
    · obtain h | ⟨_, -, h⟩ := except_error_of_bind h
      · obtain ⟨x, hx, he⟩ := mapAllReferences_error vs h
        exact ⟨x, List.mem_append_right _ hx, he⟩
      · cases h

end

/-- Binding parameters fails only with a variable of an argument or of a default. -/
theorem bindParameters_error {params : List Parameter} {args : List Value} {b : Scope}
    (hb : b.outer = scope.frames) (h : bindParameters scope params args b = .error e) :
    (∃ arg ∈ args, ∃ x ∈ arg.references, scope.resolve x = .error e) ∨
      ∃ param ∈ params, ∃ v, param.default = some v ∧ ∃ bindings : Scope,
        bindings.outer = scope.frames ∧ ∃ x ∈ v.references, bindings.resolve x = .error e := by
  induction params generalizing args b with
  | nil => cases h
  | cons param params ih =>
    rw [bindParameters_cons] at h
    obtain h | ⟨v, -, h⟩ := except_error_of_bind h
    · cases args with
      | cons arg args => exact .inl ⟨arg, List.mem_cons_self, Value.mapReferences_error arg h⟩
      | nil =>
        rw [List.head?_nil, parameterValue] at h
        split at h
        · rename_i v hv
          exact .inr ⟨param, List.mem_cons_self, v, hv, b, hb, Value.mapReferences_error v h⟩
        · cases h
    · obtain ⟨arg, harg, hx⟩ | ⟨later, hlater, hx⟩ := ih (b := b.set param.name v) hb h
      · exact .inl ⟨arg, List.mem_of_mem_tail harg, hx⟩
      · exact .inr ⟨later, List.mem_cons_of_mem _ hlater, hx⟩

theorem raises_of_mixinBody (h : mixinBody layers scope i = .error e) :
    i.Raises layers scope t e := by
  rw [mixinBody] at h
  split at h
  · rename_i hm
    cases h
    exact .unregistered hm
  · rename_i m hm
    cases hbind : m.bind i.args scope with
    | ok bindings =>
      rw [hbind] at h
      cases h
    | error e' =>
      rw [hbind] at h
      cases h
      obtain ⟨arg, harg, x, hx, he⟩ | ⟨param, hparam, v, hv, b, hb, x, hx, he⟩ :=
        bindParameters_error rfl hbind
      · exact .argument harg hx he
      · exact .default hm hparam hv hb hx he

theorem inclusionBody_error (h : inclusionBody layers scope i s = (.error e, t)) :
    i.Raises layers scope t e := by
  by_cases hlimit : s.includes < Limit.includes.max
  · rw [inclusionBody_eq hlimit] at h
    exact raises_of_mixinBody (Prod.mk.inj h).1
  · have hcount : Metered.countInclude i.name s =
        (.error (.limitExceeded .includes i.name), s.bump .includes) := by
      show Metered.check .includes (s.includes + 1) i.name (s.bump .includes) = _
      rw [Metered.check, if_pos (by omega)]
      rfl
    rw [inclusionBody, work_bind_error hcount] at h
    cases h
    exact .exceeded (Nat.lt_succ_of_le (Nat.le_of_not_lt hlimit))

/-- The step from an inclusion to a list of nodes. Sessions only ever count more, so that a bound
from below holds of all of them. -/
theorem raises_of_splice {bound : Nat}
    (hexpand : ∀ i s t, bound ≤ s.includes → expandIncludeIn layers scope k i s = (.error e, t) →
      ∃ j, Encounters layers scope [.inclusion i] j ∧ j.Raises layers scope t e)
    (hs : bound ≤ s.includes)
    (h : spliceNodes (expandIncludeIn layers scope k) nodes s = (.error e, t)) :
    ∃ j, Encounters layers scope nodes j ∧ j.Raises layers scope t e := by
  induction nodes using nodes_induction generalizing s t with
  | nil => cases h
  | inclusion i rest ih =>
    rw [spliceNodes_inclusion] at h
    obtain h | ⟨body, u, hbody, h⟩ := error_of_bind h
    · obtain ⟨j, hj, hraises⟩ := hexpand i s t hs h
      exact ⟨j, hj.of_subset (List.subset_append_left _ rest), hraises⟩
    · obtain ⟨_, n, -, -, -, rfl⟩ := expansion_of_expand hbody
      have hbound : bound ≤ (s.including (1 + n)).includes := hs.trans (Nat.le_add_right _ _)
      obtain h | ⟨_, _, -, h⟩ := error_of_bind h
      · obtain ⟨j, hj, hraises⟩ := ih hbound h
        exact ⟨j, hj.of_subset (List.subset_cons_self _ _), hraises⟩
      · cases h
  | style selector depth inner rest ihbody ihrest =>
    rw [spliceNodes_style] at h
    obtain h | ⟨body, u, hbody, h⟩ := error_of_bind h
    · obtain ⟨j, hj, hraises⟩ := ihbody hs h
      exact ⟨j, .style List.mem_cons_self hj, hraises⟩
    · obtain ⟨n, -, -, rfl⟩ := expansion_of_splice (fun _ _ _ _ => expansion_of_expand) hbody
      have hbound : bound ≤ (s.including n).includes := hs.trans (Nat.le_add_right _ _)
      obtain h | ⟨_, _, -, h⟩ := error_of_bind h
      · obtain ⟨j, hj, hraises⟩ := ihrest hbound h
        exact ⟨j, hj.of_subset (List.subset_cons_self _ _), hraises⟩
      · cases h
  | keep node rest hnode ih =>
    rw [spliceNodes_of_isKept _ hnode] at h
    obtain h | ⟨_, _, -, h⟩ := error_of_bind h
    · obtain ⟨j, hj, hraises⟩ := ih hs h
      exact ⟨j, hj.of_subset (List.subset_cons_self _ _), hraises⟩
    · cases h

/-- The room for bodies in bodies is never used up before the limit is. -/
theorem raises_of_expand (hs : Limit.includes.max ≤ s.includes + k)
    (h : expandIncludeIn layers scope k i s = (.error e, t)) :
    ∃ j, Encounters layers scope [.inclusion i] j ∧ j.Raises layers scope t e := by
  have hself : Encounters layers scope [.inclusion i] i := .here (List.mem_singleton_self _)
  induction k generalizing i s t with
  | zero =>
    rw [expandIncludeIn_zero] at h
    cases h
    exact ⟨i, hself, .exceeded (Nat.lt_succ_of_le hs)⟩
  | succ k ih =>
    rw [expandIncludeIn_succ] at h
    obtain h | ⟨copy, u, hcount, h⟩ := error_of_bind h
    · exact ⟨i, hself, inclusionBody_error h⟩
    · obtain ⟨hlimit, -⟩ := inclusionBody_ok hcount
      rw [inclusionBody_eq hlimit] at hcount
      obtain ⟨hcopy, rfl⟩ : mixinBody layers scope i = .ok copy ∧ s.including 1 = u :=
        Prod.mk.inj hcount
      have hbound : Limit.includes.max - k ≤ (s.including 1).includes := by
        show Limit.includes.max - k ≤ s.includes + 1
        omega
      obtain ⟨j, hj, hraises⟩ := raises_of_splice
        (fun i s t hs h => ih (by omega) h (.here (List.mem_singleton_self _))) hbound h
      exact ⟨j, .body (List.mem_singleton_self _) hcopy hj, hraises⟩

end Failure

/-! ## Every outcome -/

/-- Expanding the inclusions of some nodes succeeds with what they expand to, if the session allows
the bodies, and counts these bodies; no inclusion is left, and if there was none nothing happens.
Otherwise it fails with the error of an inclusion that is come upon. -/
theorem expandIncludes_outcome (layers : List Registry) (scope : Scope) (nodes : List Node)
    (s : Session) :
    (∀ out t, expandIncludes layers scope nodes s = (.ok out, t) ↔
      ∃ n, Expansion layers scope nodes out n ∧ (n = 0 ∨ s.includes + n ≤ Limit.includes.max) ∧
        t = { s with includes := s.includes + n }) ∧
    (∀ out t, expandIncludes layers scope nodes s = (.ok out, t) →
      ∀ node ∈ out, node.containsInclude = false) ∧
    ((∀ node ∈ nodes, node.containsInclude = false) →
      expandIncludes layers scope nodes s = (.ok nodes, s)) ∧
    ∀ e t, expandIncludes layers scope nodes s = (.error e, t) →
      ∃ i, Encounters layers scope nodes i ∧ i.Raises layers scope t e := by
  have hok : ∀ out t, expandIncludes layers scope nodes s = (.ok out, t) ↔
      ∃ n, Expansion layers scope nodes out n ∧ s.Allows n ∧ t = s.including n := by
    refine fun out t => ⟨expansion_of_splice fun _ _ _ _ => expansion_of_expand, ?_⟩
    rintro ⟨n, hexpansion, hn, rfl⟩
    exact gives_of_expansion hexpansion hn (by unfold Session.Allows at hn; omega)
  refine ⟨hok, ?_, ?_, ?_⟩
  · intro out t h
    obtain ⟨n, hexpansion, -, -⟩ := (hok out t).1 h
    exact hexpansion.containsInclude_eq_false
  · intro h
    exact (hok nodes s).2 ⟨0, expansion_self h, .inl rfl, rfl⟩
  · intro e t h
    exact raises_of_splice (fun i s t hs h => raises_of_expand (by omega) h) (Nat.zero_le _) h

/-- A mixin that includes another one, in a style rule: both bodies are spliced in and counted. -/
theorem expandIncludes_outcome_box : ∃ out t,
    expandIncludes boxLayers {} [.comment "", .block (.style ⟨[]⟩ 1)
      [.inclusion ⟨"box", some (.literal "2px"), default⟩]] {} = (.ok out, t) ∧
    out = [.comment "", .block (.style ⟨[]⟩ 1) [.declaration ⟨"border", .literal "2px", default⟩,
      .declaration ⟨"width", .literal "2px", default⟩]] ∧
    t.includes = 2 ∧ ∀ node ∈ out, node.containsInclude = false := by
  have houtcome := expandIncludes_outcome boxLayers {} [.comment "", .block (.style ⟨[]⟩ 1)
    [.inclusion ⟨"box", some (.literal "2px"), default⟩]] {}
  have hwidth : mixinBody boxLayers {} ⟨"width", some (.literal "2px"), default⟩ =
      .ok [.declaration ⟨"width", .literal "2px", default⟩] := rfl
  have hbox : mixinBody boxLayers {} ⟨"box", some (.literal "2px"), default⟩ =
      .ok [.declaration ⟨"border", .literal "2px", default⟩,
        .inclusion ⟨"width", some (.literal "2px"), default⟩] := rfl
  have hinner := Expansion.inclusion hwidth (.keep trivial .nil) .nil
  have houter := Expansion.inclusion hbox (.keep trivial hinner) .nil
  have hrun := (houtcome.1 _ _).2 ⟨2, .keep trivial (.style houter .nil), .inr (by decide), rfl⟩
  exact ⟨_, _, hrun, rfl, rfl, houtcome.2.1 _ _ hrun⟩

end Stylesheet
