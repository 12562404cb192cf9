import FormLogic.Evaluation

/-!
This module contains what the evaluation of a field means in terms of its rules alone. An operand
stands for the last rule with its id, and a field is refused by the first rule that fails with a
message, where all leaves come before all composites.
-/

namespace FormLogic

namespace Outcomes

def recordAll (o : Outcomes) (results : List (String × Bool)) : Outcomes :=
  results.foldl (fun o result => o.record result.1 result.2) o

theorem find?_recordAll (o : Outcomes) (results : List (String × Bool)) (id : String)
    : (o.recordAll results).find? id
        =
      ((results.reverse.find? (·.1 = id)).map (·.2)).or (o.find? id) := by
  -- The first result is the last one in the reverse list, where it counts if no other does.
  induction results generalizing o with
  | nil => rfl
  | cons result results ih =>
    unfold recordAll at ih ⊢
    rw [List.foldl_cons, ih, find?_record, List.reverse_cons, List.find?_append]
    cases results.reverse.find? (·.1 = id) with
    | some other => rfl
    | none =>
      by_cases h : id = result.1
      . simp [h]
      . simp [h, Ne.symm h]

theorem valueOf_recordAll {α : Type} (rules : List α) (idOf : α → String)
    (result : α → Bool) (absent : Bool)
    : (empty.recordAll (rules.map fun rule => (idOf rule, result rule))).valueOf absent
        =
      fun id => ((rules.reverse.find? (idOf · = id)).map result).getD absent := by
  funext id
  unfold valueOf
  rw [find?_recordAll]
  simp [← List.map_reverse, List.find?_map, Function.comp_def]

end Outcomes

namespace Leaf

def complains (rule : Leaf) (ctx : Context) : Bool := !rule.holds ctx && !rule.message.isEmpty

end Leaf

namespace Composite

def complains (rule : Composite) (values : String → Bool) : Bool :=
  !LogicToken.holds values rule.logic && !rule.message.isEmpty

end Composite

namespace Field

def conditionResult? (f : Field) (ctx : Context) (id : String) : Option Bool :=
  (f.conditions.reverse.find? (·.id = id)).map (·.holds ctx)

def leafResult? (f : Field) (ctx : Context) (id : String) : Option Bool :=
  -- All leaves take part, also those behind the composite that asks.
  (f.leaves.reverse.find? (·.id = id)).map (·.holds ctx)

/--
The message of the first leaf that fails with one, or else of the first composite that does.
-/
def complaint? (f : Field) (absent : Bool) (ctx : Context) : Option String :=
  match f.leaves.find? (·.complains ctx) with
  | some rule => some rule.message
  | none =>
    (f.composites.find? (·.complains fun id => (f.leafResult? ctx id).getD absent)).map
      (·.message)

end Field

namespace Evaluator

variable (e : Evaluator) (ctx : Context)

theorem judge_fst (outcomes : Outcomes) (logic : List LogicToken)
    : (e.judge outcomes logic).1 = LogicToken.holds (outcomes.valueOf e.absent) logic := by
  unfold judge LogicToken.holds
  cases LogicToken.eval (outcomes.valueOf e.absent) logic <;> rfl

theorem conditions_fst (cs : List Condition) (outcomes : Outcomes)
    : (conditions ctx cs outcomes).1
        =
      outcomes.recordAll (cs.map fun c => (c.id, c.holds ctx)) := by
  induction cs generalizing outcomes with
  | nil => rfl
  | cons c cs ih =>
    unfold conditions
    exact ih (outcomes.record c.id (c.holds ctx))

theorem visibility_value (f : Field)
    : (e.visibility ctx f).value
        =
      LogicToken.holds (fun id => (f.conditionResult? ctx id).getD e.absent) f.visibility := by
  have hvalue : (e.visibility ctx f).value
      = (e.judge (conditions ctx f.conditions .empty).1 f.visibility).1 := by rfl
  rw [hvalue, judge_fst, conditions_fst, Outcomes.valueOf_recordAll]
  rfl

theorem leaves_fst (rules : List Validation) (outcomes : Outcomes)
    : (leaves ctx rules outcomes).1
        =
      match (rules.filterMap (·.leaf?)).find? (·.complains ctx) with
      | some rule => .error rule.message
      | none =>
        .ok (outcomes.recordAll ((rules.filterMap (·.leaf?)).map fun rule =>
          (rule.id, rule.holds ctx))) := by
  induction rules generalizing outcomes with
  | nil => rfl
  | cons rule rules ih =>
    cases rule with
    | composite rule =>
      unfold leaves
      rw [ih]
      rfl
    | leaf rule =>
      unfold leaves
      simp only [Validation.leaf?, List.filterMap_cons, List.find?_cons]
      cases h : rule.complains ctx with
      | true =>
        rw [Leaf.complains] at h
        simp [h]
      | false =>
        rw [Leaf.complains] at h
        simp only [h, Bool.false_eq_true, ↓reduceIte]
        rw [ih]
        rfl

theorem composites_value (outcomes : Outcomes) (rules : List Validation)
    : (e.composites outcomes rules).value
        =
      ((rules.filterMap (·.composite?)).find?
        (·.complains (outcomes.valueOf e.absent))).map (·.message) := by
  induction rules with
  | nil => rfl
  | cons rule rules ih =>
    cases rule with
    | leaf rule =>
      unfold composites
      rw [ih]
      rfl
    | composite rule =>
      have hjudge := e.judge_fst outcomes rule.logic
      unfold composites
      simp only [Validation.composite?, List.filterMap_cons, List.find?_cons, hjudge]
      cases h : rule.complains (outcomes.valueOf e.absent) with
      | true =>
        rw [Composite.complains] at h
        simp [h]
      | false =>
        rw [Composite.complains] at h
        simp only [h, Bool.false_eq_true, ↓reduceIte]
        exact ih

theorem validation_value (f : Field)
    : (e.validation ctx f).value = f.complaint? e.absent ctx := by
  have hfst := leaves_fst ctx f.rules .empty
  unfold validation Field.complaint? Field.leaves
  -- The steps of checking the leaves play no part in the message.
  generalize leaves ctx f.rules .empty = checked at hfst ⊢
  rcases checked with ⟨outcomes, steps⟩
  dsimp at hfst
  cases h : (f.rules.filterMap (·.leaf?)).find? (·.complains ctx) with
  | some rule =>
    rw [h] at hfst
    rw [hfst]
  | none =>
    rw [h] at hfst
    rw [hfst]
    dsimp
    rw [composites_value, Outcomes.valueOf_recordAll]
    rfl

end Evaluator

end FormLogic
