import FormLogic.Proofs.Evaluation.Diagnostics

/-!
This module contains what the trace of an evaluation tells. Tracing changes no result, and the trace
has a line for every rule that is come to: all conditions, the visibility logic, the leaves up to
the first one that complains, and the composites likewise if no leaf complains. What a field is
refused for is therefore told last.
-/

namespace FormLogic

theorem getLast?_take_findIdx {α : Type} {p : α → Bool} {x : α} {xs : List α}
    (h : xs.find? p = some x) : (xs.take (xs.findIdx p + 1)).getLast? = some x := by
  induction xs with
  | nil => cases h
  | cons y ys ih =>
    rw [List.find?_cons] at h
    rw [take_findIdx_cons]
    cases hy : p y with
    | true =>
      rw [hy] at h
      rw [if_pos rfl]
      exact h
    | false =>
      rw [hy] at h
      specialize ih h
      rw [if_neg (by simp), List.getLast?_cons, ih]
      rfl

def Leaf.untilComplaint (ctx : Context) (rules : List Leaf) : List Leaf :=
  rules.take (rules.findIdx (·.complains ctx) + 1)

theorem Leaf.untilComplaint_cons (ctx : Context) (rule : Leaf) (rules : List Leaf)
    : untilComplaint ctx (rule :: rules)
        =
      if rule.complains ctx then [rule] else rule :: untilComplaint ctx rules := by
  apply take_findIdx_cons

theorem Leaf.getLast?_untilComplaint {ctx : Context} {rules : List Leaf} {rule : Leaf}
    (h : rules.find? (·.complains ctx) = some rule)
    : ((untilComplaint ctx rules).map fun rule => Step.leaf rule (rule.holds ctx)).getLast?
        =
      some (.leaf rule false) := by
  have hcomplains := List.find?_some h
  simp only [complains, Bool.and_eq_true, Bool.not_eq_true'] at hcomplains
  unfold untilComplaint
  rw [List.getLast?_map, getLast?_take_findIdx h, Option.map_some, hcomplains.1]

theorem Composite.getLast?_untilComplaint {values : String → Bool} {rules : List Composite}
    {rule : Composite} (h : rules.find? (·.complains values) = some rule)
    : ((untilComplaint values rules).map fun rule =>
        Step.composite rule (LogicToken.holds values rule.logic)).getLast?
        =
      some (.composite rule false) := by
  have hcomplains := List.find?_some h
  simp only [complains, Bool.and_eq_true, Bool.not_eq_true'] at hcomplains
  unfold untilComplaint
  rw [List.getLast?_map, getLast?_take_findIdx h, Option.map_some, hcomplains.1]

def Validation.step : Validation → Bool → Step
  | leaf rule, result => .leaf rule result
  | composite rule, result => .composite rule result

namespace Field

def passes (f : Field) (ctx : Context) (rule : Composite) : Bool :=
  LogicToken.holds (fun id => (f.leafResult? ctx id).getD false) rule.logic

/--
All rules that are come to, in order and with their results.
-/
def steps (f : Field) (ctx : Context) : List Step :=
  f.conditions.map (fun c => .condition c (c.holds ctx))
    ++ [.visibility f.visibility (f.isVisible ctx)]
    ++ (Leaf.untilComplaint ctx f.leaves).map (fun rule => .leaf rule (rule.holds ctx))
    ++ (f.examined false ctx).map fun rule => .composite rule (f.passes ctx rule)

theorem mem_rules_of_mem_leaves (f : Field) {rule : Leaf} (h : rule ∈ f.leaves)
    : .leaf rule ∈ f.rules := by
  unfold leaves at h
  rw [List.mem_filterMap] at h
  rcases h with ⟨other, hother, hrule⟩
  cases other with
  | composite other => cases hrule
  | leaf other =>
    cases hrule
    exact hother

theorem mem_rules_of_mem_composites (f : Field) {rule : Composite} (h : rule ∈ f.composites)
    : .composite rule ∈ f.rules := by
  unfold composites at h
  rw [List.mem_filterMap] at h
  rcases h with ⟨other, hother, hrule⟩
  cases other with
  | leaf other => cases hrule
  | composite other =>
    cases hrule
    exact hother

end Field

namespace Evaluator

variable (ctx : Context)

theorem conditions_snd (cs : List Condition) (outcomes : Outcomes)
    : (conditions ctx cs outcomes).2 = cs.map fun c => .condition c (c.holds ctx) := by
  induction cs generalizing outcomes with
  | nil => rfl
  | cons c cs ih =>
    unfold conditions
    dsimp only
    rw [ih, List.map_cons]

theorem visibility_steps (e : Evaluator) (f : Field)
    : (e.visibility ctx f).steps
        =
      f.conditions.map (fun c => .condition c (c.holds ctx))
        ++ [.visibility f.visibility (e.visibility ctx f).value] := by
  rw [← conditions_snd ctx f.conditions .empty]
  rfl

theorem leaves_snd (rules : List Validation) (outcomes : Outcomes)
    : (leaves ctx rules outcomes).2
        =
      (Leaf.untilComplaint ctx (rules.filterMap (·.leaf?))).map fun rule =>
        .leaf rule (rule.holds ctx) := by
  induction rules generalizing outcomes with
  | nil => rfl
  | cons rule rules ih =>
    cases rule with
    | composite rule =>
      unfold leaves
      rw [ih]
      rfl
    | leaf rule =>
      have hcons : (Validation.leaf rule :: rules).filterMap (·.leaf?)
          = rule :: rules.filterMap (·.leaf?) := rfl
      unfold leaves
      dsimp only
      rw [hcons, Leaf.untilComplaint_cons, Leaf.complains]
      split
      . rfl
      . dsimp only
        rw [ih, List.map_cons]

theorem composites_steps (e : Evaluator) (outcomes : Outcomes) (rules : List Validation)
    : (e.composites outcomes rules).steps
        =
      (Composite.untilComplaint (outcomes.valueOf e.absent)
        (rules.filterMap (·.composite?))).map fun rule =>
          .composite rule (LogicToken.holds (outcomes.valueOf e.absent) rule.logic) := by
  induction rules with
  | nil => rfl
  | cons rule rules ih =>
    cases rule with
    | leaf rule =>
      unfold composites
      rw [ih]
      rfl
    | composite rule =>
      have hcons : (Validation.composite rule :: rules).filterMap (·.composite?)
          = rule :: rules.filterMap (·.composite?) := rfl
      unfold composites
      dsimp only
      rw [judge_fst, hcons, Composite.untilComplaint_cons, Composite.complains]
      split
      . rfl
      . dsimp only
        rw [ih, List.map_cons]

theorem validation_steps (tracing : Bool) (f : Field)
    : ((ofTracing tracing).validation ctx f).steps
        =
      (Leaf.untilComplaint ctx f.leaves).map (fun rule => .leaf rule (rule.holds ctx))
        ++ (f.examined false ctx).map fun rule => .composite rule (f.passes ctx rule) := by
  have hfst := leaves_fst ctx f.rules .empty
  have hsnd := leaves_snd ctx f.rules .empty
  unfold validation Field.examined Field.leaves
  rw [← List.isSome_find?]
  generalize leaves ctx f.rules .empty = checked at hfst hsnd ⊢
  rcases checked with ⟨outcomes, steps⟩
  dsimp at hfst hsnd
  cases h : (f.rules.filterMap (·.leaf?)).find? (·.complains ctx) with
  | some rule =>
    rw [h] at hfst
    rw [hfst, hsnd]
    simp
  | none =>
    rw [h] at hfst
    rw [hfst, hsnd]
    dsimp
    rw [composites_steps, Outcomes.valueOf_recordAll]
    rfl

theorem getLast?_validation_steps (tracing : Bool) {f : Field} {message : String}
    (h : ((ofTracing tracing).validation ctx f).value = some message)
    : ∃ rule ∈ f.rules,
        rule.message = message
          ∧ ((ofTracing tracing).validation ctx f).steps.getLast? = some (rule.step false) := by
  rw [validation_value, Field.complaint?] at h
  rw [validation_steps, List.getLast?_append]
  unfold Field.examined
  rw [← List.isSome_find?]
  cases hleaf : f.leaves.find? (·.complains ctx) with
  | some rule =>
    rw [hleaf, Option.some.injEq] at h
    refine ⟨.leaf rule, f.mem_rules_of_mem_leaves (List.mem_of_find?_eq_some hleaf), h, ?_⟩
    rw [Leaf.getLast?_untilComplaint hleaf]
    rfl
  | none =>
    rw [hleaf] at h
    dsimp only at h
    rw [Option.map_eq_some_iff] at h
    rcases h with ⟨rule, hcomposite, hmessage⟩
    refine ⟨.composite rule, f.mem_rules_of_mem_composites (List.mem_of_find?_eq_some hcomposite),
      hmessage, ?_⟩
    have hlast := Composite.getLast?_untilComplaint hcomposite
    rw [Option.isSome_none, if_neg (by simp)]
    unfold Field.passes
    rw [ofTracing] at hlast
    rw [hlast]
    rfl

theorem visibility_value_eq_isVisible (tracing : Bool) (f : Field)
    : ((ofTracing tracing).visibility ctx f).value = f.isVisible ctx := by
  rw [visibility_value]
  symm
  apply visibility_value

theorem validation_value_eq_validate (tracing : Bool) (f : Field)
    : ((ofTracing tracing).validation ctx f).value = f.validate ctx := by
  rw [validation_value]
  symm
  apply validation_value

theorem visibility_validation_steps (tracing : Bool) (f : Field)
    : ((ofTracing tracing).visibility ctx f).steps ++ ((ofTracing tracing).validation ctx f).steps
        =
      f.steps ctx := by
  rw [visibility_steps, visibility_value_eq_isVisible, validation_steps]
  unfold Field.steps
  rw [← List.append_assoc]

theorem evaluate_trace (ctx : Context) (f : Field)
    : (∀ tracing,
        ((ofTracing tracing).evaluate ctx f).1.visible = f.isVisible ctx
          ∧ ((ofTracing tracing).isVisible ctx f).1 = f.isVisible ctx
          ∧ ((ofTracing tracing).evaluate ctx f).1.error = f.validate ctx
          ∧ ((ofTracing tracing).validate ctx f).1 = f.validate ctx)
        ∧ ((ofTracing false).evaluate ctx f).1.trace = []
        ∧ ((ofTracing true).evaluate ctx f).1.trace = (f.steps ctx).map (·.line)
        ∧ ∀ message, ((ofTracing true).evaluate ctx f).1.error = some message
          → ∃ rule ∈ f.rules,
            rule.message = message
              ∧ ((ofTracing true).evaluate ctx f).1.trace.getLast?
                  = some (rule.step false).line := by
  have htrace : ((ofTracing true).evaluate ctx f).1.trace = (f.steps ctx).map (·.line) := by
    rw [← visibility_validation_steps ctx true]
    rfl
  refine ⟨?_, rfl, htrace, ?_⟩
  . intro tracing
    refine ⟨?_, ?_, ?_, ?_⟩
    . apply visibility_value_eq_isVisible
    . apply visibility_value_eq_isVisible
    . apply validation_value_eq_validate
    . apply validation_value_eq_validate
  . intro message herror
    have ⟨rule, hrule, hmessage, hlast⟩ := getLast?_validation_steps ctx true herror
    refine ⟨rule, hrule, hmessage, ?_⟩
    rw [htrace, ← visibility_validation_steps ctx true, List.getLast?_map, List.getLast?_append,
      hlast]
    rfl

theorem evaluate_trace_of_malformed_composite
    : let f : Field := ⟨"f", "", "", [⟨"c", "a", .equals, none⟩], [.operand "c", .not],
        some [.composite ⟨"k", [.operand "l", .and], "no"⟩,
          .composite ⟨"later", [.or], "never"⟩,
          .leaf ⟨"l", "a", .notEquals, none, ""⟩]⟩
      let ctx : Context := ⟨.object [("b", .null)]⟩
      let traced := ((ofTracing true).evaluate ctx f).1
      traced.error = some "no"
        ∧ traced.trace
            =
          ["c: a equals undefined => MATCHED", "visibility: [c NOT] => HIDDEN",
            "validation l: a not_equals undefined => FAILED", "validation k: [l AND] => FAILED"]
        ∧ ∃ rule ∈ f.rules,
          rule.message = "no" ∧ traced.trace.getLast? = some (rule.step false).line := by
  intro f ctx traced
  have ⟨_, _, htrace, hlast⟩ := evaluate_trace ctx f
  have herror : traced.error = some "no" := by decide
  refine ⟨herror, ?_, hlast "no" herror⟩
  rw [htrace]
  decide

end Evaluator

end FormLogic
