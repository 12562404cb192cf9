import FormLogic.Proofs.Comparison.Agreement
import FormLogic.Proofs.Comparison.Equivalence
import Mathlib.Logic.ExistsUnique

/-!
This module contains the proof that the four relational operators are one comparison: which of them
hold of two values is settled by an order between the two, where one side may be without a number to
compare. The order is turned round if the sides are swapped.
-/

namespace FormLogic

namespace Json

/--
These values are compared as texts with one another.
-/
def isTextual : Json → Bool
  | string _ => true
  | array _ => true
  | object _ => true
  | _ => false

end Json

namespace Operator

def relational : List Operator := [greaterThan, lessThan, greaterOrEqual, lessOrEqual]

inductive Outcome where
  | incomparable
  | greater
  | less
  | equivalent
deriving DecidableEq

namespace Outcome

def operators : Outcome → List Operator
  | incomparable => []
  | greater => [greaterThan, greaterOrEqual]
  | less => [lessThan, lessOrEqual]
  | equivalent => [greaterOrEqual, lessOrEqual]

def swap : Outcome → Outcome
  | incomparable => incomparable
  | greater => less
  | less => greater
  | equivalent => equivalent

def Describes (o : Outcome) (a b : Option Json) : Prop :=
  ∀ op ∈ relational, op.relates a b = true ↔ op ∈ o.operators

instance (o : Outcome) (a b : Option Json) : Decidable (o.Describes a b) :=
  inferInstanceAs (Decidable (∀ op ∈ relational, op.relates a b = true ↔ op ∈ o.operators))

def ofOrder : Option Ordering → Outcome
  | none => incomparable
  | some .gt => greater
  | some .lt => less
  | some .eq => equivalent

theorem swap_ofOrder (order : Option Ordering)
    : (ofOrder order).swap = ofOrder (order.map Ordering.swap) := by
  rcases order with _ | order
  . rfl
  . cases order <;> rfl

@[simp]
theorem swap_swap (o : Outcome) : o.swap.swap = o := by cases o <;> rfl

theorem swap_eq_iff (o p : Outcome) : o.swap = p ↔ o = p.swap := by
  constructor
  . intro h
    rw [← h, swap_swap]
  . intro h
    rw [h, swap_swap]

theorem describes_iff (o : Outcome) (a b : Option Json)
    : o.Describes a b ↔ o = ofOrder (order? a b) := by
  simp only [Describes, relational, List.forall_mem_cons, relates]
  rcases order? a b with _ | order
  . cases o <;> simp [ofOrder, operators]
  . cases o
    all_goals
      cases order <;> simp [ofOrder, operators]

end Outcome

end Operator

namespace Scalar

theorem map_swap_compare? (a b : Scalar) : (a.compare? b).map Ordering.swap = b.compare? a := by
  unfold compare?
  cases a.rank? with
  | none => cases b.rank? <;> rfl
  | some x =>
    cases b.rank? with
    | none => rfl
    | some y => simp [Ordering.swap_then, Int.compare_swap]

end Scalar

theorem Comparand.map_swap_compare? (a b : Comparand)
    : (a.compare? b).map Ordering.swap = b.compare? a := by
  cases a with
  | text as =>
    cases b with
    | text bs =>
      rw [compare?, compare?, Option.map_some]
      unfold Text.compareUnits
      rw [← Std.OrientedCmp.eq_swap]
    | scalar y => apply Scalar.map_swap_compare?
  | scalar x =>
    cases b
    all_goals
      apply Scalar.map_swap_compare?

namespace Operator

theorem map_swap_order? (a b : Option Json) : (order? a b).map Ordering.swap = order? b a := by
  apply Comparand.map_swap_compare?

theorem order?_none (b : Option Json) : order? none b = none := by
  unfold order?
  cases Comparand.ofValue b
  all_goals
    rfl

theorem ofValue_eq_text {v : Json} (h : v.isTextual)
    : Comparand.ofValue (some v) = .text v.plainText := by
  cases v with
  | string s => rfl
  | array items => rfl
  | object members => rfl
  | _ => cases h

theorem order?_isSome_of_isTextual {v w : Json} (hv : v.isTextual) (hw : w.isTextual)
    : (order? (some v) (some w)).isSome := by
  unfold order?
  rw [ofValue_eq_text hv, ofValue_eq_text hw]
  rfl

theorem order?_self (v : Json) : order? (some v) (some v) = some .eq := by
  by_cases htextual : v.isTextual
  . have htext := ofValue_eq_text htextual
    rw [order?_eq_some_eq_iff_of_text htext htext]
  . cases v with
    | null => exact order?_eq_some_eq_of_equal (Json.equal_self .null) nofun
    | bool b => exact order?_eq_some_eq_of_equal (Json.equal_self (.bool b)) nofun
    | number n => exact order?_eq_some_eq_of_equal (Json.equal_self (.number n)) nofun
    | _ => exact absurd rfl htextual

theorem relational_operators_cohere
    : (∀ a b : Option Json, ∃! o : Outcome, o.Describes a b)
        ∧ (∀ (o : Outcome) (a b : Option Json), o.Describes a b ↔ o.swap.Describes b a)
        ∧ (∀ a : Option Json,
          Outcome.incomparable.Describes none a ∧ Outcome.incomparable.Describes a none)
        ∧ (∀ v : Json, Outcome.equivalent.Describes (some v) (some v))
        ∧ ∀ v w : Json, v.isTextual → w.isTextual
          → ¬Outcome.incomparable.Describes (some v) (some w) := by
  have hswap : ∀ (o : Outcome) (a b : Option Json), o.Describes a b ↔ o.swap.Describes b a := by
    intro o a b
    rw [Outcome.describes_iff, Outcome.describes_iff, Outcome.swap_eq_iff, Outcome.swap_ofOrder,
      map_swap_order?]
  have hnone : ∀ a : Option Json, Outcome.incomparable.Describes none a := by
    intro a
    rw [Outcome.describes_iff, order?_none]
    rfl
  refine ⟨?_, hswap, ?_, ?_, ?_⟩
  . intro a b
    simp only [Outcome.describes_iff]
    exact existsUnique_eq
  . intro a
    exact ⟨hnone a, (hswap .incomparable none a).mp (hnone a)⟩
  . intro v
    rw [Outcome.describes_iff, order?_self]
    rfl
  . intro v w hv hw hdescribes
    rw [Outcome.describes_iff] at hdescribes
    have hsome := order?_isSome_of_isTextual hv hw
    rw [Option.isSome_iff_exists] at hsome
    rcases hsome with ⟨order, horder⟩
    rw [horder] at hdescribes
    cases order <;> cases hdescribes

theorem relational_operators_cohere_surrogates
    : let v : Json := .array [.string "😀"]
      let w : Json := .string "～"
      v.isTextual ∧ w.isTextual ∧ ¬Outcome.incomparable.Describes (some v) (some w)
        ∧ Outcome.less.Describes (some v) (some w)
        ∧ Outcome.greater.Describes (some w) (some v) := by
  intro v w
  have ⟨_, hswap, _, _, htextual⟩ := relational_operators_cohere
  have hless : Outcome.less.Describes (some v) (some w) := by decide +kernel
  exact ⟨rfl, rfl, htextual v w rfl rfl, hless, (hswap .less (some v) (some w)).mp hless⟩

end Operator

end FormLogic
