import FormLogic.Proofs.Evaluation.Meaning
import Mathlib.Data.List.Forall2
import Mathlib.Data.List.Nodup

/-!
This module contains the proof that expressions without negation are monotone. If more operands are
true, what was true on the stack stays true, and whether an operator finds its operands depends on
no value at all. So a result that is missing can hide a field, but it never shows one.
-/

namespace FormLogic

namespace LogicToken

def Below (stack other : List Bool) : Prop := List.Forall₂ (fun a b : Bool => a → b) stack other

section Below

variable {values more : String → Bool}

theorem effect?_below (hvalues : ∀ id, values id → more id) {token : LogicToken}
    (htoken : token ≠ .not) {stack other : List Bool} (h : Below stack other)
    : Option.Rel Below (token.effect? values stack) (token.effect? more other) := by
  cases token with
  | operand id => exact .some (.cons (hvalues id) h)
  | not => exact absurd rfl htoken
  | and =>
    cases h with
    | nil => exact .none
    | cons ha h =>
      cases h with
      | nil => exact .none
      | cons hb h =>
        refine .some (.cons ?_ h)
        rw [Bool.and_eq_true, Bool.and_eq_true]
        exact And.imp ha hb
  | or =>
    cases h with
    | nil => exact .none
    | cons ha h =>
      cases h with
      | nil => exact .none
      | cons hb h =>
        refine .some (.cons ?_ h)
        rw [Bool.or_eq_true, Bool.or_eq_true]
        exact Or.imp ha hb

theorem head?_below {stack other : List Bool} (h : Below stack other)
    : stack.head?.getD true → other.head?.getD true := by
  cases h with
  | nil => exact id
  | cons hab h => exact hab

theorem run_below (hvalues : ∀ id, values id → more id) {tokens : List LogicToken}
    (htokens : .not ∉ tokens) (position : Nat) {stack other : List Bool} (h : Below stack other)
    : (∃ e, run values position tokens stack = .error e ∧ run more position tokens other = .error e)
        ∨
      ∃ a b : Bool,
        run values position tokens stack = .ok a ∧ run more position tokens other = .ok b
        ∧ (a → b) := by
  induction tokens generalizing position stack other with
  | nil => exact .inr ⟨_, _, rfl, rfl, head?_below h⟩
  | cons token tokens ih =>
    rw [List.mem_cons, not_or] at htokens
    have heffect := effect?_below hvalues (Ne.symm htokens.1) h
    unfold run
    generalize token.effect? values stack = next at heffect
    generalize token.effect? more other = next' at heffect
    cases heffect with
    | none => exact .inl ⟨_, rfl, rfl⟩
    | some hnext => exact ih htokens.2 (position + 1) hnext

theorem holds_of_below (hvalues : ∀ id, values id → more id) {tokens : List LogicToken}
    (htokens : .not ∉ tokens) (h : holds values tokens) : holds more tokens := by
  unfold holds eval at *
  cases run_below hvalues htokens 1 .nil with
  | inl hfails =>
    rcases hfails with ⟨e, he, _⟩
    rw [he] at h
    cases h
  | inr hvalue =>
    rcases hvalue with ⟨a, b, ha, hb, hab⟩
    rw [ha] at h
    rw [hb]
    exact hab h

end Below

end LogicToken

theorem find?_reverse_of_mem {α : Type} {idOf : α → String} {as : List α}
    (hids : (as.map idOf).Nodup) {a : α} (ha : a ∈ as)
    : as.reverse.find? (idOf · = idOf a) = some a := by
  cases hfind : as.reverse.find? (idOf · = idOf a) with
  | none =>
    rw [List.find?_eq_none] at hfind
    exact absurd (decide_eq_true rfl) (hfind a (List.mem_reverse.mpr ha))
  | some b =>
    have hb := List.mem_reverse.mp (List.mem_of_find?_eq_some hfind)
    have hid : idOf b = idOf a := by simpa using List.find?_some hfind
    rw [List.inj_on_of_nodup_map hids hb ha hid]

namespace Field

theorem conditionResult?_of_sublist {f : Field} (hids : (f.conditions.map (·.id)).Nodup)
    {kept : List Condition} (hkept : kept.Sublist f.conditions) {ctx : Context} {id : String}
    {result : Bool}
    (h : ({ f with conditions := kept } : Field).conditionResult? ctx id = some result)
    : f.conditionResult? ctx id = some result := by
  unfold conditionResult? at *
  rw [Option.map_eq_some_iff] at h
  rcases h with ⟨c, hc, hresult⟩
  have hmem := hkept.subset (List.mem_reverse.mp (List.mem_of_find?_eq_some hc))
  have hid : c.id = id := by simpa using List.find?_some hc
  -- No other condition has the id, so what is left of them cannot stand in for a removed one.
  rw [← hid, find?_reverse_of_mem hids hmem, Option.map_some, hresult]

end Field

namespace Evaluator

theorem closed_without_negation
    : (∀ tokens : List LogicToken, .not ∉ tokens
        → ∀ o more : Outcomes, (∀ id, o.valueOf false id → more.valueOf false id)
          → LogicToken.holds (o.valueOf false) tokens
          → LogicToken.holds (more.valueOf false) tokens)
        ∧
      ∀ (f : Field) (kept : List Condition) (tracing : Bool) (ctx : Context),
        (f.conditions.map (·.id)).Nodup → .not ∉ f.visibility → kept.Sublist f.conditions
          → ((ofTracing tracing).isVisible ctx f).1 = false
          → ((ofTracing tracing).isVisible ctx { f with conditions := kept }).1 = false := by
  constructor
  . intro tokens htokens o more hvalues
    exact LogicToken.holds_of_below hvalues htokens
  . intro f kept tracing ctx hids hnot hkept hhidden
    unfold isVisible at *
    dsimp only at *
    rw [visibility_value] at *
    rw [← Bool.not_eq_true] at *
    intro hshown
    apply hhidden
    apply LogicToken.holds_of_below ?_ hnot hshown
    intro id hid
    cases hresult : ({ f with conditions := kept } : Field).conditionResult? ctx id with
    | none =>
      rw [hresult] at hid
      cases hid
    | some result =>
      rw [hresult] at hid
      rw [Field.conditionResult?_of_sublist hids hkept hresult]
      exact hid

theorem closed_without_negation_removed_middle
    : let tokens : List LogicToken := [.operand "a", .operand "b", .or, .operand "c", .and]
      let o := (Outcomes.empty.record "a" true).record "c" true
      let more := ((Outcomes.empty.record "c" true).record "b" false).record "a" true
      let f : Field := ⟨"f", "", "", [⟨"a", "x", .equals, some .null⟩, ⟨"b", "y", .equals, none⟩,
        ⟨"c", "z", .notEquals, none⟩], tokens, none⟩
      let kept : List Condition := [⟨"a", "x", .equals, some .null⟩, ⟨"c", "z", .notEquals, none⟩]
      let ctx : Context := ⟨.object [("x", .bool true), ("y", .null), ("z", .null)]⟩
      .not ∉ tokens
        ∧ (∀ id, o.valueOf false id → more.valueOf false id)
        ∧ LogicToken.holds (o.valueOf false) tokens
        ∧ LogicToken.holds (more.valueOf false) tokens
        ∧ (f.conditions.map (·.id)).Nodup
        ∧ kept.Sublist f.conditions
        ∧ f.isVisible ctx = false
        ∧ ({ f with conditions := kept } : Field).isVisible ctx = false := by
  intro tokens o more f kept ctx
  have ⟨hmore, hfewer⟩ := closed_without_negation
  have hnot : .not ∉ tokens := by decide
  have hvalues : ∀ id, o.valueOf false id → more.valueOf false id := by
    intro id
    simp only [o, more, Outcomes.valueOf, Outcomes.find?_record, Outcomes.find?_empty]
    split
    . simp_all
    . split
      . simp_all
      . simp
  have hholds : LogicToken.holds (o.valueOf false) tokens := by decide
  have hids : (f.conditions.map (·.id)).Nodup := by decide
  have hkept : kept.Sublist f.conditions := .cons_cons _ (.cons _ (.cons_cons _ .slnil))
  have hhidden : f.isVisible ctx = false := by decide
  exact ⟨hnot, hvalues, hholds, hmore tokens hnot o more hvalues hholds, hids, hkept, hhidden,
    hfewer f kept false ctx hids hnot hkept hhidden⟩

end Evaluator

end FormLogic
