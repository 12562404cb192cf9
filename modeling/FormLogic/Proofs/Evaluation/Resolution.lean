import FormLogic.Proofs.Evaluation.Meaning
import FormLogic.Revision
import Mathlib.Data.List.Basic

/-!
This module contains the proof that the unresolved operands of a field are those for which its
evaluation finds no result. Whether a rule has a result depends on its id alone, so the operands are
the same in all contexts, and without any of them it does not matter what an absent operand counts
as.
-/

namespace FormLogic

namespace LogicToken

def operand? : LogicToken → Option String
  | operand id => some id
  | _ => none

def operands (tokens : List LogicToken) : List String := tokens.filterMap operand?

theorem mem_operands (tokens : List LogicToken) (id : String)
    : id ∈ operands tokens ↔ operand id ∈ tokens := by
  unfold operands
  rw [List.mem_filterMap]
  constructor
  . intro h
    rcases h with ⟨token, htoken, heq⟩
    cases token with
    | operand other =>
      simp only [operand?, Option.some.injEq] at heq
      rwa [← heq]
    | _ => simp [operand?] at heq
  . intro h
    exact ⟨operand id, h, rfl⟩

theorem run_congr {v₁ v₂ : String → Bool} {tokens : List LogicToken}
    (h : ∀ id, operand id ∈ tokens → v₁ id = v₂ id) (position : Nat) (stack : List Bool)
    : run v₁ position tokens stack = run v₂ position tokens stack := by
  induction tokens generalizing position stack with
  | nil => rfl
  | cons token tokens ih =>
    have heffect : token.effect? v₁ stack = token.effect? v₂ stack := by
      cases token with
      | operand id => simp [effect?, h id List.mem_cons_self]
      | _ =>
        rcases stack with _ | ⟨a, _ | ⟨b, stack⟩⟩
        all_goals
          rfl
    have hrest : ∀ id, operand id ∈ tokens → v₁ id = v₂ id := by
      intro id hid
      exact h id (List.mem_cons_of_mem _ hid)
    unfold run
    rw [heffect]
    cases token.effect? v₂ stack with
    | none => rfl
    | some result => exact ih hrest (position + 1) result

end LogicToken

structure IsFirsts (occurrences found : List String) : Prop where
  mem_iff : ∀ id, id ∈ found ↔ id ∈ occurrences
  ordered : found.Pairwise fun a b => occurrences.idxOf a < occurrences.idxOf b

namespace IsFirsts

theorem nil : IsFirsts [] [] := ⟨by simp, .nil⟩

variable {occurrences found : List String}

theorem nodup (h : IsFirsts occurrences found) : found.Nodup := by
  apply h.ordered.imp
  intro a b hlt heq
  rw [heq] at hlt
  exact Nat.lt_irrefl _ hlt

theorem append_singleton (h : IsFirsts occurrences found) (id : String)
    : IsFirsts (occurrences ++ [id]) (if id ∈ found then found else found ++ [id]) := by
  have hordered : found.Pairwise fun a b =>
      (occurrences ++ [id]).idxOf a < (occurrences ++ [id]).idxOf b := by
    apply h.ordered.imp_of_mem
    intro a b ha hb hlt
    rw [h.mem_iff] at ha hb
    rwa [List.idxOf_append_of_mem ha, List.idxOf_append_of_mem hb]
  split
  . next hid =>
    refine ⟨?_, hordered⟩
    intro other
    rw [List.mem_append, List.mem_singleton, h.mem_iff]
    rw [h.mem_iff] at hid
    constructor
    . exact .inl
    . intro hother
      rcases hother with hother | rfl
      . exact hother
      . exact hid
  . next hid =>
    constructor
    . intro other
      rw [List.mem_append, List.mem_append, h.mem_iff]
    . rw [List.pairwise_append]
      refine ⟨hordered, by simp, ?_⟩
      intro a ha b hb
      rw [List.mem_singleton] at hb
      rw [h.mem_iff] at ha hid
      rw [hb, List.idxOf_append_of_mem ha, List.idxOf_append_of_notMem hid]
      have := List.idxOf_lt_length_of_mem ha
      omega

theorem addUnknown (h : IsFirsts occurrences found) (known : List String)
    (tokens : List LogicToken)
    : IsFirsts (occurrences ++ (LogicToken.operands tokens).filter (· ∉ known))
        (Field.addUnknown known found tokens) := by
  induction tokens generalizing occurrences found with
  | nil => simpa [LogicToken.operands, Field.addUnknown] using h
  | cons token tokens ih =>
    cases token with
    | operand id =>
      have hoperands : LogicToken.operands (.operand id :: tokens)
          = id :: LogicToken.operands tokens := by rfl
      unfold Field.addUnknown
      rw [hoperands]
      by_cases hknown : id ∈ known
      . simpa [hknown] using ih h
      . simpa [hknown] using ih (h.append_singleton id)
    | _ => exact ih h

theorem addUnknown_composites (h : IsFirsts occurrences found) (known : List String)
    (rules : List Composite)
    : IsFirsts
        (occurrences
          ++
        rules.flatMap fun rule => (LogicToken.operands rule.logic).filter (· ∉ known))
        (rules.foldl (fun found rule => Field.addUnknown known found rule.logic) found) := by
  induction rules generalizing occurrences found with
  | nil => simpa using h
  | cons rule rules ih =>
    rw [List.flatMap_cons, ← List.append_assoc, List.foldl_cons]
    exact ih (h.addUnknown known rule.logic)

end IsFirsts

namespace Outcomes

theorem find?_recordAll_eq_none {α : Type} (rules : List α) (idOf : α → String)
    (result : α → Bool) (id : String)
    : (empty.recordAll (rules.map fun rule => (idOf rule, result rule))).find? id = none
        ↔
      id ∉ rules.map idOf := by
  rw [find?_recordAll, find?_empty, Option.or_none, Option.map_eq_none_iff, List.find?_eq_none]
  simp only [List.mem_reverse, List.mem_map, decide_eq_true_eq, not_exists, not_and]
  constructor
  . intro h rule hrule
    exact h (idOf rule, result rule) ⟨rule, hrule, rfl⟩
  . intro h entry hentry
    rcases hentry with ⟨rule, hrule, rfl⟩
    exact h rule hrule

end Outcomes

namespace Field

def conditionOutcomes (f : Field) (ctx : Context) : Outcomes :=
  (Evaluator.conditions ctx f.conditions .empty).1

def leafOutcomes (f : Field) (ctx : Context) : Outcomes :=
  -- Nobody asks for them if a leaf refuses the field.
  Outcomes.empty.recordAll (f.leaves.map fun rule => (rule.id, rule.holds ctx))

/--
The occurrences of operands that find no result, in the order in which they are written.
-/
def unanswered (f : Field) (ctx : Context) : List String :=
  (LogicToken.operands f.visibility).filter (fun id => (f.conditionOutcomes ctx).find? id = none)
    ++
  f.composites.flatMap fun rule =>
    (LogicToken.operands rule.logic).filter fun id => (f.leafOutcomes ctx).find? id = none

variable (f : Field) (ctx : Context)

theorem find?_conditionOutcomes_eq_none (id : String)
    : (f.conditionOutcomes ctx).find? id = none ↔ id ∉ f.conditions.map (·.id) := by
  unfold conditionOutcomes
  rw [Evaluator.conditions_fst]
  apply Outcomes.find?_recordAll_eq_none

theorem find?_leafOutcomes_eq_none (id : String)
    : (f.leafOutcomes ctx).find? id = none ↔ id ∉ f.leaves.map (·.id) := by
  apply Outcomes.find?_recordAll_eq_none

theorem mem_unanswered (id : String)
    : id ∈ f.unanswered ctx
        ↔
      (.operand id ∈ f.visibility ∧ (f.conditionOutcomes ctx).find? id = none)
        ∨
      ∃ rule ∈ f.composites, .operand id ∈ rule.logic ∧ (f.leafOutcomes ctx).find? id = none := by
  unfold unanswered
  simp only [List.mem_append, List.mem_flatMap, List.mem_filter, decide_eq_true_eq,
    LogicToken.mem_operands]

theorem isFirsts_unresolvedOperands : IsFirsts (f.unanswered ctx) f.unresolvedOperands := by
  unfold unanswered unresolvedOperands
  simp only [find?_conditionOutcomes_eq_none, find?_leafOutcomes_eq_none]
  have hvisibility := IsFirsts.nil.addUnknown (f.conditions.map (·.id)) f.visibility
  rw [List.nil_append] at hvisibility
  rw [← List.nil_append (List.filter _ _)]
  exact (IsFirsts.nil.addUnknown _ _).addUnknown_composites _ _

end Field

namespace Evaluator

variable (ctx : Context) (f : Field)

theorem leaves_eq_leafOutcomes {outcomes : Outcomes}
    (h : (leaves ctx f.rules .empty).1 = .ok outcomes) : outcomes = f.leafOutcomes ctx := by
  rw [leaves_fst] at h
  split at h
  . simp at h
  . simp only [Except.ok.injEq] at h
    exact h.symm

variable (e₁ e₂ : Evaluator)

theorem judge_congr {outcomes : Outcomes} {logic : List LogicToken}
    (h : ∀ id, .operand id ∈ logic → outcomes.find? id ≠ none)
    : e₁.judge outcomes logic = e₂.judge outcomes logic := by
  have heval : LogicToken.eval (outcomes.valueOf e₁.absent) logic
      = LogicToken.eval (outcomes.valueOf e₂.absent) logic := by
    apply LogicToken.run_congr
    intro id hid
    unfold Outcomes.valueOf
    cases hfind : outcomes.find? id with
    | none => exact absurd hfind (h id hid)
    | some result => rfl
  unfold judge
  rw [heval]

theorem composites_congr {outcomes : Outcomes} {rules : List Validation}
    (h : ∀ rule ∈ rules.filterMap (·.composite?), ∀ id, .operand id ∈ rule.logic
      → outcomes.find? id ≠ none)
    : e₁.composites outcomes rules = e₂.composites outcomes rules := by
  induction rules with
  | nil => rfl
  | cons rule rules ih =>
    cases rule with
    | leaf rule => exact ih h
    | composite rule =>
      have hjudge : e₁.judge outcomes rule.logic = e₂.judge outcomes rule.logic :=
        judge_congr e₁ e₂ (h rule (by simp [Validation.composite?]))
      unfold composites
      rw [hjudge, ih]
      intro other hother
      exact h other (List.mem_cons_of_mem _ hother)

theorem visibility_eq_of_unanswered_eq_nil (h : f.unanswered ctx = [])
    : e₁.visibility ctx f = e₂.visibility ctx f := by
  have hjudge : e₁.judge (f.conditionOutcomes ctx) f.visibility
      = e₂.judge (f.conditionOutcomes ctx) f.visibility := by
    apply judge_congr
    intro id hid hnone
    have : id ∈ f.unanswered ctx := by
      rw [f.mem_unanswered]
      exact .inl ⟨hid, hnone⟩
    simp [h] at this
  unfold Field.conditionOutcomes at hjudge
  unfold visibility
  dsimp
  rw [hjudge]

theorem validation_eq_of_unanswered_eq_nil (h : f.unanswered ctx = [])
    : e₁.validation ctx f = e₂.validation ctx f := by
  have hcomposites : e₁.composites (f.leafOutcomes ctx) f.rules
      = e₂.composites (f.leafOutcomes ctx) f.rules := by
    apply composites_congr
    intro rule hrule id hid hnone
    have : id ∈ f.unanswered ctx := by
      rw [f.mem_unanswered]
      exact .inr ⟨rule, hrule, hid, hnone⟩
    simp [h] at this
  have hleaves := @leaves_eq_leafOutcomes ctx f
  unfold validation
  generalize leaves ctx f.rules .empty = checked at hleaves
  rcases checked with ⟨_ | outcomes, steps⟩
  . rfl
  . rw [hleaves rfl]
    dsimp
    rw [hcomposites]

theorem unresolvedOperands_iff_unanswered (last : Nat) (f : Field) (ctx : Context)
    : let found := (Revision.next last f).unresolvedOperands
      (∀ id, id ∈ found
          ↔
        (.operand id ∈ f.visibility ∧ (conditions ctx f.conditions .empty).1.find? id = none)
          ∨
        ∃ rule ∈ f.composites, .operand id ∈ rule.logic ∧ (f.leafOutcomes ctx).find? id = none)
        ∧ (∀ outcomes, (leaves ctx f.rules .empty).1 = .ok outcomes
            → outcomes = f.leafOutcomes ctx)
        ∧ found.Nodup
        ∧ found.Pairwise (fun a b => (f.unanswered ctx).idxOf a < (f.unanswered ctx).idxOf b)
        ∧ (found = [] → ∀ tracing,
            (⟨tracing, false⟩ : Evaluator).isVisible ctx f
                = (⟨tracing, true⟩ : Evaluator).isVisible ctx f
              ∧ (⟨tracing, false⟩ : Evaluator).validate ctx f
                  = (⟨tracing, true⟩ : Evaluator).validate ctx f
              ∧ (⟨tracing, false⟩ : Evaluator).evaluate ctx f
                  = (⟨tracing, true⟩ : Evaluator).evaluate ctx f) := by
  intro found
  have hfirsts : IsFirsts (f.unanswered ctx) found := f.isFirsts_unresolvedOperands ctx
  refine ⟨?_, ?_, hfirsts.nodup, hfirsts.ordered, ?_⟩
  . intro id
    rw [hfirsts.mem_iff, f.mem_unanswered]
    rfl
  . intro outcomes
    exact leaves_eq_leafOutcomes ctx f
  . intro hnil tracing
    have hunanswered : f.unanswered ctx = [] := by
      rw [List.eq_nil_iff_forall_not_mem]
      intro id hid
      rw [← hfirsts.mem_iff, hnil] at hid
      simp at hid
    have hvisibility := visibility_eq_of_unanswered_eq_nil ctx f ⟨tracing, false⟩ ⟨tracing, true⟩
      hunanswered
    have hvalidation := validation_eq_of_unanswered_eq_nil ctx f ⟨tracing, false⟩ ⟨tracing, true⟩
      hunanswered
    unfold isVisible validate evaluate
    rw [hvisibility, hvalidation]
    exact ⟨rfl, rfl, rfl⟩

theorem evaluate_absent_of_later_leaf
    : let f : Field := ⟨"f", "", "", [⟨"c", "a", .equals, none⟩, ⟨"c", "b", .equals, none⟩],
        [.operand "c", .not], some [.composite ⟨"k", [.operand "l", .and], "no"⟩,
          .leaf ⟨"l", "a", .notEquals, none, ""⟩]⟩
      let ctx : Context := ⟨.object [("b", .null)]⟩
      (Revision.next 0 f).unresolvedOperands = []
        ∧ (⟨true, false⟩ : Evaluator).evaluate ctx f
            = (⟨true, true⟩ : Evaluator).evaluate ctx f := by
  intro f ctx
  have hnil : (Revision.next 0 f).unresolvedOperands = [] := by decide
  have ⟨_, _, _, _, hsame⟩ := unresolvedOperands_iff_unanswered 0 f ctx
  exact ⟨hnil, (hsame hnil true).2.2⟩

end Evaluator

end FormLogic
