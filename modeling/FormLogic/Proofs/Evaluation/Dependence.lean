import FormLogic.Evaluation
import FormLogic.Proofs.Comparison.Sameness
import FormLogic.Revision
import Mathlib.Data.List.Basic

/-!
This module contains the proof that evaluating a field reads nothing but its paths. Rules look at
the context only through the value at their own path, so two contexts in which the paths of a field
lead to the same values cannot be told apart by evaluating it.
-/

namespace FormLogic

/--
The paths lead to the same values in both contexts, or to none in either.
-/
def Context.AgreeOn (paths : List String) (c₁ c₂ : Context) : Prop :=
  ∀ path ∈ paths, c₁.get? path == c₂.get? path

namespace Field

theorem mem_paths (f : Field) (path : String)
    : path ∈ f.paths
        ↔
      (∃ c ∈ f.conditions, c.path = path) ∨ ∃ rule ∈ f.leaves, rule.path = path := by
  unfold paths
  rw [List.mem_mergeSort, List.mem_eraseDups, List.mem_append, List.mem_map, List.mem_map]

end Field

namespace Evaluator

variable {c₁ c₂ : Context}

theorem conditions_congr {cs : List Condition} (h : ∀ c ∈ cs, c.holds c₁ = c.holds c₂)
    (outcomes : Outcomes) : conditions c₁ cs outcomes = conditions c₂ cs outcomes := by
  induction cs generalizing outcomes with
  | nil => rfl
  | cons c cs ih =>
    unfold conditions
    rw [h c List.mem_cons_self]
    dsimp
    rw [ih]
    intro c hc
    exact h c (List.mem_cons_of_mem _ hc)

theorem leaves_congr {rules : List Validation}
    (h : ∀ rule ∈ rules.filterMap (·.leaf?), rule.holds c₁ = rule.holds c₂) (outcomes : Outcomes)
    : leaves c₁ rules outcomes = leaves c₂ rules outcomes := by
  induction rules generalizing outcomes with
  | nil => rfl
  | cons rule rules ih =>
    cases rule with
    | composite rule => exact ih h outcomes
    | leaf rule =>
      have hhead : rule.holds c₁ = rule.holds c₂ := h rule (by simp [Validation.leaf?])
      have hrest : ∀ rule ∈ rules.filterMap (·.leaf?), rule.holds c₁ = rule.holds c₂ := by
        intro other hother
        exact h other (List.mem_cons_of_mem _ hother)
      unfold leaves
      rw [hhead]
      dsimp
      rw [ih hrest]

theorem holds_eq_of_agreeOn {f : Field} (h : Context.AgreeOn f.paths c₁ c₂)
    : (∀ c ∈ f.conditions, c.holds c₁ = c.holds c₂)
        ∧ ∀ rule ∈ f.leaves, rule.holds c₁ = rule.holds c₂ := by
  constructor
  . intro c hc
    apply Operator.relates_eq_of_beq
    apply h
    rw [f.mem_paths]
    exact .inl ⟨c, hc, rfl⟩
  . intro rule hrule
    apply Operator.relates_eq_of_beq
    apply h
    rw [f.mem_paths]
    exact .inr ⟨rule, hrule, rfl⟩

theorem visibility_congr (e : Evaluator) {f : Field}
    (h : ∀ c ∈ f.conditions, c.holds c₁ = c.holds c₂)
    : e.visibility c₁ f = e.visibility c₂ f := by
  unfold visibility
  rw [conditions_congr h]

theorem validation_congr (e : Evaluator) {f : Field}
    (h : ∀ rule ∈ f.leaves, rule.holds c₁ = rule.holds c₂)
    : e.validation c₁ f = e.validation c₂ f := by
  unfold validation
  rw [leaves_congr h]

theorem evaluate_eq_of_agreeOn (tracing : Bool) (last : Nat) (f : Field) (c₁ c₂ : Context)
    (h : Context.AgreeOn (Revision.next last f).paths c₁ c₂)
    : (ofTracing tracing).evaluate c₁ f = (ofTracing tracing).evaluate c₂ f := by
  have ⟨hconditions, hleaves⟩ := holds_eq_of_agreeOn h
  unfold evaluate
  rw [visibility_congr _ hconditions, validation_congr _ hleaves]

theorem evaluate_eq_of_agreeOn_beside_path
    : let f : Field := ⟨"f", "", "", [⟨"c", "a.b", .equals, some (.bool true)⟩],
        [.operand "c", .and], some [.leaf ⟨"l", "a.b", .notEquals, none, "m"⟩]⟩
      let c₁ : Context := ⟨.object [("a", .object [("b", .bool true)]), ("d", .null)]⟩
      let c₂ : Context := ⟨.object [("a", .object [("b", .bool true), ("e", .null)])]⟩
      Context.AgreeOn (Revision.next 0 f).paths c₁ c₂
        ∧ (ofTracing true).evaluate c₁ f = (ofTracing true).evaluate c₂ f := by
  intro f c₁ c₂
  have h : Context.AgreeOn (Revision.next 0 f).paths c₁ c₂ := by
    intro path hpath
    have hpath : path = "a.b" := by
      simpa [Revision.next, Field.mem_paths, Field.leaves, Field.rules, Validation.leaf?, f,
        eq_comm] using hpath
    rw [hpath]
    decide
  exact ⟨h, evaluate_eq_of_agreeOn true 0 f c₁ c₂ h⟩

end Evaluator

end FormLogic
