import FormLogic.Json.Basic
import FormLogic.Proofs.Number.Numeral
import FormLogic.Proofs.Number.Rounding

/-!
This module contains the numerals that numbers are written as, and the proof that each of them
stands for the number that was written.
-/

namespace FormLogic

namespace Numeral

theorem isWholePart_cons {first : Char} (h : first ≠ '0') (ds : List Char)
    : isWholePart (first :: ds) := by
  cases ds <;> simp [isWholePart, h]

theorem exists_toDigits_eq_cons {n : Nat} (h : n ≠ 0)
    : ∃ first ds, Nat.toDigits 10 n = first :: ds ∧ first ≠ '0' := by
  induction n using Nat.strongRecOn with
  | ind n ih =>
    rw [Nat.toDigits_eq_if (by omega)]
    split
    . refine ⟨_, _, rfl, ?_⟩
      rwa [ne_eq, Nat.digitChar_eq_zero]
    . have ⟨first, ds, hds, hfirst⟩ := ih (n / 10) (by omega) (by omega)
      exact ⟨first, ds ++ [(n % 10).digitChar], by rw [hds]; rfl, hfirst⟩

theorem isWholePart_toDigits (n : Nat) : isWholePart (Nat.toDigits 10 n) := by
  by_cases h : n = 0
  . rw [h]
    rfl
  . rcases exists_toDigits_eq_cons h with ⟨first, ds, hds, hfirst⟩
    rw [hds]
    exact isWholePart_cons hfirst ds

theorem digitsValue_append_zeros (ds : List Char) (n : Nat)
    : digitsValue (ds ++ List.replicate n '0') = digitsValue ds * Nat.pow 10 n := by
  unfold digitsValue
  rw [Nat.ofDigitChars_append, Nat.ofDigitChars_replicate_zero, Nat.mul_comm]
  rfl

theorem digitsValue_zeros_append (n : Nat) (ds : List Char)
    : digitsValue (List.replicate n '0' ++ ds) = digitsValue ds := by
  unfold digitsValue
  rw [Nat.ofDigitChars_append, Nat.ofDigitChars_replicate_zero, Nat.mul_zero]

def placed (negative : Bool) (ds : List Char) (point : Int) : Numeral :=
  if ds.length ≤ point then
    ⟨negative, ds ++ List.replicate (point.toNat - ds.length) '0', ['0'], none⟩
  else if 0 < point then
    ⟨negative, ds.take point.toNat, ds.drop point.toNat, none⟩
  else
    ⟨negative, ['0'], List.replicate (-point).toNat '0' ++ ds, none⟩

def scientific (negative : Bool) (ds : List Char) (place : Int) : Numeral :=
  ⟨negative, ds.take 1, ds.drop 1, some place⟩

theorem write_placed (negative : Bool) {ds : List Char} (hds : ds ≠ []) (point : Int)
    : (placed negative ds point).write
        =
      if negative then
        '-' :: Number.layout.placePoint ds point
      else
        Number.layout.placePoint ds point := by
  unfold placed Layout.placePoint
  split
  . simp [write, writeUnsigned, writeFraction, writeExponent, Number.layout]
  . split
    . have hdrop : ds.drop point.toNat ≠ [] := by
        rw [ne_eq, List.drop_eq_nil_iff]
        omega
      rcases List.exists_cons_of_ne_nil hdrop with ⟨first, rest, hfirst⟩
      simp [write, writeUnsigned, writeFraction, writeExponent, hfirst]
    . rcases List.exists_cons_of_ne_nil hds with ⟨first, rest, rfl⟩
      generalize (-point).toNat = zeros
      cases zeros <;> simp [write, writeUnsigned, writeFraction, writeExponent, List.replicate_succ]

theorem write_scientific (negative : Bool) {ds : List Char} (hds : ds ≠ []) (place : Int)
    : (scientific negative ds place).write
        =
      if negative then
        '-' :: Layout.withExponent ds place
      else
        Layout.withExponent ds place := by
  rcases ds with _ | ⟨first, _ | ⟨second, rest⟩⟩
  . exact absurd rfl hds
  . simp [scientific, write, writeUnsigned, writeFraction, writeExponent, Layout.withExponent]
  . simp [scientific, write, writeUnsigned, writeFraction, writeExponent, Layout.withExponent]

def Leads (ds : List Char) (point : Int) : Prop :=
  (∃ first rest, ds = first :: rest ∧ first ≠ '0') ∨ (ds = ['0'] ∧ point = 1)

theorem isStrict_placed (negative : Bool) {ds : List Char} {point : Int}
    (hds : ∀ c ∈ ds, c.isDigit) (hleads : Leads ds point)
    : (placed negative ds point).IsStrict := by
  have hzeros : ∀ n, ∀ c ∈ List.replicate n '0', c.isDigit := by
    intro n c hc
    rw [List.eq_of_mem_replicate hc]
    decide
  unfold placed
  split
  . next hlength =>
    constructor
    . rcases hleads with ⟨first, rest, rfl, hfirst⟩ | ⟨rfl, rfl⟩
      . exact isWholePart_cons hfirst _
      . rfl
    . intro c hc
      rcases List.mem_append.mp hc with hc | hc
      . exact hds c hc
      . exact hzeros _ c hc
    . exact hzeros 1
  . split
    . next hlength hpoint =>
      constructor
      . rcases hleads with ⟨first, rest, rfl, hfirst⟩ | ⟨rfl, rfl⟩
        . have ⟨k, hk⟩ : ∃ k, point.toNat = k + 1 := ⟨point.toNat - 1, by omega⟩
          rw [hk]
          exact isWholePart_cons hfirst _
        . exact absurd (by decide) hlength
      . intro c hc
        exact hds c (List.mem_of_mem_take hc)
      . intro c hc
        exact hds c (List.mem_of_mem_drop hc)
    . constructor
      . rfl
      . exact hzeros 1
      . intro c hc
        rcases List.mem_append.mp hc with hc | hc
        . exact hzeros _ c hc
        . exact hds c hc

theorem isStrict_scientific (negative : Bool) {ds : List Char} {point : Int} (place : Int)
    (hds : ∀ c ∈ ds, c.isDigit) (hleads : Leads ds point)
    : (scientific negative ds place).IsStrict := by
  constructor
  . rcases hleads with ⟨first, rest, rfl, hfirst⟩ | ⟨rfl, _⟩
    . exact isWholePart_cons hfirst _
    . rfl
  . intro c hc
    exact hds c (List.mem_of_mem_take hc)
  . intro c hc
    exact hds c (List.mem_of_mem_drop hc)

theorem toScalar_placed (negative : Bool) {ds : List Char} {point : Int} (hpoint : point < 400)
    : (placed negative ds point).toDecimal.toScalar
        =
      (⟨negative, digitsValue ds, point - ds.length⟩ : Decimal).toScalar := by
  unfold placed
  split
  . have ⟨zeros, hzeros⟩ : ∃ zeros : Nat, zeros = point - ds.length :=
      ⟨(point - ds.length).toNat, by omega⟩
    have hcount : point.toNat - ds.length = zeros := by omega
    have hdigits : ds ++ List.replicate zeros '0' ++ ['0']
        = ds ++ List.replicate (zeros + 1) '0' := by
      rw [List.append_assoc, List.replicate_succ']
    unfold toDecimal
    dsimp only
    rw [hcount, hdigits, digitsValue_append_zeros, ← hzeros]
    exact Decimal.toScalar_shift negative (digitsValue ds) (by omega)
  . split
    . have hexponent : 0 - ((ds.drop point.toNat).length : Int) = point - ds.length := by
        rw [List.length_drop]
        omega
      unfold toDecimal
      dsimp only [Option.getD_none]
      rw [List.take_append_drop, hexponent]
    . have hdigits : digitsValue (['0'] ++ (List.replicate (-point).toNat '0' ++ ds))
          = digitsValue ds := by
        rw [← List.append_assoc, List.singleton_append, ← List.replicate_succ,
          digitsValue_zeros_append]
      have hexponent : 0 - ((List.replicate (-point).toNat '0' ++ ds).length : Int)
          = point - ds.length := by
        rw [List.length_append, List.length_replicate]
        omega
      unfold toDecimal
      dsimp only [Option.getD_none]
      rw [hdigits, hexponent]

theorem fraction_placed_ne_nil (negative : Bool) {ds : List Char} (hds : ds ≠ []) (point : Int)
    : (placed negative ds point).fraction ≠ [] := by
  unfold placed
  split
  . simp
  . split
    . rw [ne_eq, List.drop_eq_nil_iff]
      omega
    . simp [hds]

theorem toDecimal_scientific (negative : Bool) {ds : List Char} (hds : ds ≠ []) (place : Int)
    : (scientific negative ds place).toDecimal
        =
      ⟨negative, digitsValue ds, place + 1 - ds.length⟩ := by
  have hlength := List.length_pos_iff.mpr hds
  have hexponent : place - ((ds.drop 1).length : Int) = place + 1 - ds.length := by
    rw [List.length_drop]
    omega
  unfold scientific toDecimal
  dsimp only [Option.getD_some]
  rw [List.take_append_drop, hexponent]

end Numeral

namespace Decimal

theorem negative_eq_of_toScalar {d : Decimal} {x : Binary64} (h : d.toScalar = .finite x)
    : d.negative = x.negative := by
  have hratio : ∀ num den, Scalar.ofRatio d.negative num den = .finite x
      → d.negative = x.negative := by
    intro num den hnum
    unfold Scalar.ofRatio at hnum
    dsimp only at hnum
    split at hnum
    . cases hnum
      rfl
    . cases hnum
  unfold toScalar at h
  split at h
  . cases h
    rfl
  . split at h
    . cases h
    . split at h
      . exact hratio _ _ h
      . exact hratio _ _ h

theorem units_eq_zero_of_toScalar {d : Decimal} {x : Binary64} (h : d.toScalar = .finite x)
    (hdigits : d.digits = 0) : x.units = 0 := by
  rw [toScalar_of_digits_eq_zero hdigits] at h
  cases h
  rfl

end Decimal

namespace Number

theorem leads_toDigits (x : Binary64)
    : let d := Decimal.shortest .even x
      let ds := Nat.toDigits 10 d.digits
      Numeral.Leads ds (ds.length + d.exponent) := by
  intro d ds
  by_cases h : x.units = 0
  . right
    have hd : d = ⟨x.negative, 0, 0⟩ := if_pos h
    simp [ds, hd]
  . left
    apply Numeral.exists_toDigits_eq_cons
    intro hdigits
    exact h (Decimal.units_eq_zero_of_toScalar (Decimal.toScalar_shortest .even x) hdigits)

def toNumeral : Number → Numeral
  | whole value _ => ⟨value < 0, Nat.toDigits 10 value.natAbs, [], none⟩
  | real x =>
    let d := Decimal.shortest .even x
    let ds := Nat.toDigits 10 d.digits
    let place := ds.length + d.exponent - 1
    if layout.isPositional place then
      .placed x.negative ds (place + 1)
    else
      .scientific x.negative ds place

theorem write_toNumeral (n : Number) : n.toNumeral.write = n.write := by
  unfold toNumeral write
  cases n with
  | whole value _ =>
    simp [Numeral.write, Numeral.writeUnsigned, Numeral.writeFraction, Numeral.writeExponent,
      Numeral.writeInt]
  | real x =>
    dsimp only [Layout.write]
    have hds : layout.tie = .even := rfl
    rw [hds]
    generalize Decimal.shortest .even x = d
    split
    . exact Numeral.write_placed _ Nat.toDigits_ne_nil _
    . exact Numeral.write_scientific _ Nat.toDigits_ne_nil _

theorem isStrict_toNumeral (n : Number) : n.toNumeral.IsStrict := by
  unfold toNumeral
  cases n with
  | whole value _ =>
    constructor
    . exact Numeral.isWholePart_toDigits _
    . exact Numeral.isDigit_of_mem_toDigits
    . intro c hc
      exact absurd hc List.not_mem_nil
  | real x =>
    have hleads := leads_toDigits x
    dsimp only at hleads ⊢
    split
    . apply Numeral.isStrict_placed _ Numeral.isDigit_of_mem_toDigits
      rwa [Int.sub_add_cancel]
    . exact Numeral.isStrict_scientific _ _ Numeral.isDigit_of_mem_toDigits hleads

theorem toScalar_toNumeral_real (x : Binary64)
    : (toNumeral (.real x)).toDecimal.toScalar = .finite x := by
  have hshortest := Decimal.toScalar_shortest .even x
  have hnegative := Decimal.negative_eq_of_toScalar hshortest
  unfold toNumeral
  dsimp only
  generalize Decimal.shortest .even x = d at *
  rcases d with ⟨negative, digits, exponent⟩
  dsimp only at *
  rw [← hnegative]
  generalize hds : Nat.toDigits 10 digits = ds
  have hvalue : Numeral.digitsValue ds = digits := by
    rw [← hds, Numeral.digitsValue_toDigits]
  split
  . next hplace =>
    have hbound : ds.length + exponent - 1 + 1 < 400 := by
      simp [layout, Layout.isPositional] at hplace
      omega
    have hexponent : ds.length + exponent - 1 + 1 - (ds.length : Int) = exponent := by omega
    rw [Numeral.toScalar_placed _ hbound, hvalue, hexponent]
    exact hshortest
  . have hexponent : ds.length + exponent - 1 + 1 - (ds.length : Int) = exponent := by omega
    have hnonempty : ds ≠ [] := by
      rw [← hds]
      exact Nat.toDigits_ne_nil
    rw [Numeral.toDecimal_scientific _ hnonempty, hvalue, hexponent]
    exact hshortest

theorem not_isWhole_toNumeral_real (x : Binary64)
    : ¬((toNumeral (.real x)).fraction = [] ∧ (toNumeral (.real x)).exponent = none) := by
  intro h
  unfold toNumeral at h
  dsimp only at h
  split at h
  . exact Numeral.fraction_placed_ne_nil _ Nat.toDigits_ne_nil _ h.1
  . cases h.2

theorem ofNumeral?_toNumeral (n : Number) : ofNumeral? n.toNumeral = some n := by
  cases n with
  | whole value hfits =>
    have hvalue : (if decide (value < 0) then -(value.natAbs : Int) else value.natAbs) = value := by
      simp only [decide_eq_true_eq]
      omega
    have hzero : ¬(decide (value < 0) = true ∧ value.natAbs = 0) := by
      simp only [decide_eq_true_eq]
      omega
    unfold ofNumeral? toNumeral
    simp only [Numeral.digitsValue_toDigits, hvalue]
    rw [dif_pos ⟨⟨trivial, trivial, hzero⟩, hfits⟩]
  | real x =>
    have hwhole := not_isWhole_toNumeral_real x
    unfold ofNumeral?
    dsimp only
    rw [dif_neg]
    . rw [toScalar_toNumeral_real]
    . intro h
      exact hwhole ⟨h.1.1, h.1.2.1⟩

end Number

end FormLogic
