import FormLogic.Comparison
import FormLogic.Proofs.Number.Order
import Mathlib.Data.List.Forall2

/-!
This module contains the comparison of whole numbers. It is that of their rounded values, which keep
the order but can be the same for different numbers of more than 53 bits.
-/

namespace FormLogic

def Json.IsWhole (v : Json) (value : Int) : Prop := ∃ fits, v = .number (.whole value fits)

namespace Operator

variable {a b : Json} {i j : Int}

theorem order?_of_isWhole (ha : a.IsWhole i) (hb : b.IsWhole j)
    : order? (some a) (some b)
        =
      some (compare (Scalar.roundedUnits i) (Scalar.roundedUnits j)) := by
  rcases ha with ⟨hi, rfl⟩
  rcases hb with ⟨hj, rfl⟩
  exact Scalar.compare?_ofInt hi hj

theorem equal_iff_of_isWhole (ha : a.IsWhole i) (hb : b.IsWhole j)
    : a.equal b ↔ Scalar.ofInt i = .ofInt j := by
  rcases ha with ⟨hi, rfl⟩
  rcases hb with ⟨hj, rfl⟩
  have hcompare := Scalar.compare?_ofInt hi hj
  rw [Json.equal, Number.toScalar, Number.toScalar, hcompare, Scalar.ofInt_eq_iff hi hj]
  simp

theorem any_equal_iff_of_isWhole {items : List Json} {is : List Int}
    (hitems : List.Forall₂ Json.IsWhole items is) (hb : b.IsWhole j)
    : items.any (·.equal b) ↔ ∃ i ∈ is, Scalar.ofInt i = .ofInt j := by
  induction hitems with
  | nil => simp
  | cons ha _ ih => simp [equal_iff_of_isWhole ha hb, ih]

theorem relates_iff_of_order? {a b : Option Json} {x y : Int} (h : order? a b = some (compare x y))
    : (greaterThan.relates a b = true ↔ y < x)
        ∧ (lessThan.relates a b = true ↔ x < y)
        ∧ (greaterOrEqual.relates a b = true ↔ y ≤ x)
        ∧ (lessOrEqual.relates a b = true ↔ x ≤ y) := by
  simp only [relates, h, Bool.or_eq_true, beq_iff_eq, Option.some.injEq, Std.compare_eq_gt,
    Std.compare_eq_lt, Std.compare_eq_iff_eq, true_and]
  omega

theorem whole_numbers_related_by_rounded_value (ha : a.IsWhole i) (hb : b.IsWhole j)
    : (equals.relates (some a) (some b) = true ↔ Scalar.ofInt i = .ofInt j)
        ∧ (greaterThan.relates (some a) (some b) = true ↔ j < i ∧ Scalar.ofInt i ≠ .ofInt j)
        ∧ (lessThan.relates (some a) (some b) = true ↔ i < j ∧ Scalar.ofInt i ≠ .ofInt j)
        ∧ (greaterOrEqual.relates (some a) (some b) = true ↔ j ≤ i ∨ Scalar.ofInt i = .ofInt j)
        ∧ (lessOrEqual.relates (some a) (some b) = true ↔ i ≤ j ∨ Scalar.ofInt i = .ofInt j)
        ∧ (∀ items is, List.Forall₂ Json.IsWhole items is
            → (includes.relates (some (.array items)) (some b) = true
                ↔
              ∃ i ∈ is, Scalar.ofInt i = .ofInt j))
        ∧ (i.natAbs < 0x20000000000000 ∨ j.natAbs < 0x20000000000000
            → (Scalar.ofInt i = .ofInt j ↔ i = j)) := by
  have hfits : -0x8000000000000000 ≤ i ∧ i < 0x10000000000000000 := ha.1
  have hfits' : -0x8000000000000000 ≤ j ∧ j < 0x10000000000000000 := hb.1
  have hround := Scalar.ofInt_eq_iff hfits hfits'
  have ⟨hgreater, hless, hgreaterOrEqual, hlessOrEqual⟩ :=
    relates_iff_of_order? (order?_of_isWhole ha hb)
  refine ⟨equal_iff_of_isWhole ha hb, ?_, ?_, ?_, ?_, ?_, ?_⟩
  . rw [hgreater, Scalar.roundedUnits_lt_iff, ne_comm, Ne, Ne, hround]
  . rw [hless, Scalar.roundedUnits_lt_iff, Ne, Ne, hround]
  . rw [hgreaterOrEqual, Scalar.roundedUnits_le_iff, eq_comm, hround]
  . rw [hlessOrEqual, Scalar.roundedUnits_le_iff, hround]
  . intro items is hitems
    have hany := any_equal_iff_of_isWhole hitems hb
    rw [← hany]
    simp [relates, contains?]
  . intro hsmall
    constructor
    . intro h
      rw [hround] at h
      cases hsmall with
      | inl hi => exact Scalar.eq_of_roundedUnits_eq hi h
      | inr hj => exact (Scalar.eq_of_roundedUnits_eq hj h.symm).symm
    . intro h
      rw [h]

theorem whole_numbers_related_by_rounded_value_beside_limit
    : let a : Json := .number (.whole 9007199254740993 (by decide))
      let b : Json := .number (.whole 9007199254740991 (by decide))
      let c : Json := .number (.whole (-9007199254740993) (by decide))
      a.IsWhole 9007199254740993
        ∧ b.IsWhole 9007199254740991
        ∧ List.Forall₂ Json.IsWhole [c, a] [-9007199254740993, 9007199254740993]
        ∧ Int.natAbs 9007199254740991 < 0x20000000000000
        ∧ greaterThan.relates (some a) (some b) = true
        ∧ equals.relates (some a) (some b) = false
        ∧ includes.relates (some (.array [c, a])) (some b) = false := by
  intro a b c
  have ha : a.IsWhole 9007199254740993 := ⟨by decide, rfl⟩
  have hb : b.IsWhole 9007199254740991 := ⟨by decide, rfl⟩
  have hc : c.IsWhole (-9007199254740993) := ⟨by decide, rfl⟩
  have hitems : List.Forall₂ Json.IsWhole [c, a] [-9007199254740993, 9007199254740993] :=
    .cons hc (.cons ha .nil)
  have hsmall : Int.natAbs 9007199254740991 < 0x20000000000000 := by decide
  have ⟨hequals, hgreater, _, _, _, hincludes, hexact⟩ :=
    whole_numbers_related_by_rounded_value ha hb
  have ⟨_, _, _, _, _, _, hexact'⟩ := whole_numbers_related_by_rounded_value hc hb
  have hne := mt (hexact (.inr hsmall)).mp (by decide)
  have hne' := mt (hexact' (.inr hsmall)).mp (by decide)
  refine ⟨ha, hb, hitems, hsmall, hgreater.mpr ⟨by decide, hne⟩, ?_, ?_⟩
  . rw [← Bool.not_eq_true, hequals]
    exact hne
  . rw [← Bool.not_eq_true, hincludes _ _ hitems]
    simp [hne, hne']

theorem equals_of_successive_whole_numbers
    : let a : Json := .number (.whole 9007199254740993 (by decide))
      let b : Json := .number (.whole 9007199254740992 (by decide))
      a.IsWhole 9007199254740993
        ∧ b.IsWhole 9007199254740992
        ∧ equals.relates (some a) (some b) = true
        ∧ greaterThan.relates (some a) (some b) = false
        ∧ includes.relates (some (.array [a])) (some b) = true := by
  intro a b
  exact ⟨⟨by decide, rfl⟩, ⟨by decide, rfl⟩, by decide +kernel⟩

end Operator

end FormLogic
