import FormLogic.Number.Decimal

/-!
This module contains the proof that rounding depends on the ratio alone and leaves numbers of the
format as they are. So a decimal with zeros moved between its digits and its exponent stands for the
same number, and the shortest decimal of a number reads back as that number.
-/

namespace FormLogic

namespace Binary64

variable {k : Nat}

theorem roundHalfEven_mul_left (hk : 0 < k) (num den : Nat)
    : roundHalfEven (k * num) (k * den) = roundHalfEven num den := by
  have hlow : 2 * (k * (num % den)) < k * den ↔ 2 * (num % den) < den := by
    rw [Nat.mul_left_comm, Nat.mul_lt_mul_left hk]
  have hhigh : k * den < 2 * (k * (num % den)) ↔ den < 2 * (num % den) := by
    rw [Nat.mul_left_comm, Nat.mul_lt_mul_left hk]
  unfold roundHalfEven
  simp only [Nat.mul_div_mul_left _ _ hk, Nat.mul_mod_mul_left, hlow, hhigh]

theorem roundHalfEven_of_dvd {num den : Nat} (hden : 0 < den) (h : den ∣ num)
    : roundHalfEven num den = num / den := by
  unfold roundHalfEven
  simp [Nat.mod_eq_zero_of_dvd h, hden]

theorem roundUnits_mul_left (hk : 0 < k) (num den : Nat)
    : roundUnits (k * num) (k * den) = roundUnits num den := by
  unfold roundUnits
  simp only [Nat.mul_div_mul_left _ _ hk, Nat.shiftLeft_eq, Nat.mul_assoc]
  rw [roundHalfEven_mul_left hk]

theorem one_shiftLeft_pos (shift : Nat) : 0 < 1 <<< shift := by
  rw [Nat.one_shiftLeft]
  exact Nat.two_pow_pos _

theorem shiftLeft_eq_mul (n bits : Nat) : n <<< bits = n * 1 <<< bits := by
  rw [Nat.shiftLeft_eq, Nat.one_shiftLeft]

theorem roundUnits_shiftLeft (units shift : Nat)
    : roundUnits (units <<< shift) (1 <<< shift) = roundUnits units 1 := by
  have hunits : units <<< shift = (1 <<< shift) * units := by
    rw [shiftLeft_eq_mul, Nat.mul_comm]
  rw [hunits, ← roundUnits_mul_left (one_shiftLeft_pos shift) units 1, Nat.mul_one]

theorem excessBits_le_of_eq_shiftLeft {units significand shift : Nat}
    (hsignificand : significand < 1 <<< 53) (h : units = significand <<< shift)
    : excessBits units ≤ shift := by
  unfold excessBits
  by_cases hzero : units = 0
  . simp [hzero]
  . have hlt : units < 2 ^ (53 + shift) := by
      rw [h, Nat.shiftLeft_eq, Nat.pow_add]
      rw [Nat.shiftLeft_eq, Nat.one_mul] at hsignificand
      exact Nat.mul_lt_mul_of_pos_right hsignificand (Nat.two_pow_pos _)
    have := (Nat.log2_lt hzero).mpr hlt
    omega

theorem roundUnits_one {units : Nat} (h : Representable units) : roundUnits units 1 = units := by
  rcases h with ⟨_, significand, shift, hsignificand, hunits⟩
  have hle := excessBits_le_of_eq_shiftLeft hsignificand hunits
  -- What is cut off the significand are zeros.
  have hdvd : 1 <<< excessBits units ∣ units := by
    rw [Nat.one_shiftLeft]
    conv => rhs; rw [hunits, Nat.shiftLeft_eq]
    exact Nat.dvd_mul_left_of_dvd (Nat.pow_dvd_pow 2 hle) _
  have hround : roundHalfEven units (1 <<< excessBits units) <<< excessBits units = units := by
    rw [roundHalfEven_of_dvd (one_shiftLeft_pos _) hdvd, Nat.shiftLeft_eq]
    rw [Nat.one_shiftLeft] at hdvd ⊢
    exact Nat.div_mul_cancel hdvd
  unfold roundUnits
  rw [Nat.div_one]
  exact hround

end Binary64

namespace Scalar

variable {k : Nat}

theorem ofRatio_mul_left (hk : 0 < k) (negative : Bool) (num den : Nat)
    : ofRatio negative (k * num) (k * den) = ofRatio negative num den := by
  have hunits : Binary64.roundUnits ((k * num) <<< 1074) (k * den)
      = Binary64.roundUnits (num <<< 1074) den := by
    rw [Nat.shiftLeft_eq, Nat.shiftLeft_eq, Nat.mul_assoc, Binary64.roundUnits_mul_left hk]
  unfold ofRatio
  simp only [hunits]

theorem ofRatio_units (x : Binary64)
    : ofRatio x.negative x.units (1 <<< 1074) = .finite x := by
  have hunits : Binary64.roundUnits (x.units <<< 1074) (1 <<< 1074) = x.units := by
    rw [Binary64.roundUnits_shiftLeft, Binary64.roundUnits_one x.representable]
  unfold ofRatio
  simp only [hunits]
  rw [dif_pos x.representable.1]

end Scalar

namespace Decimal

theorem toScalar_of_digits_eq_zero {d : Decimal} (h : d.digits = 0)
    : d.toScalar = .finite (.zero d.negative) := by
  unfold toScalar
  rw [if_pos (.inl h)]

theorem toScalar_ofNat {digits exponent : Nat} (hdigits : digits ≠ 0) (h : exponent < 400)
    (negative : Bool)
    : (⟨negative, digits, .ofNat exponent⟩ : Decimal).toScalar
        =
      .ofRatio negative (digits * Nat.pow 10 exponent) 1 := by
  have hlow : ¬(digits = 0 ∨ Int.ofNat exponent < -(400 + (digits.log2 : Int))) := by
    simp only [Int.ofNat_eq_natCast]
    omega
  have hhigh : ¬400 ≤ Int.ofNat exponent := by
    simp only [Int.ofNat_eq_natCast]
    omega
  unfold toScalar
  rw [if_neg hlow, if_neg hhigh]

theorem toScalar_negSucc {digits exponent : Nat} (hdigits : digits ≠ 0)
    (h : exponent < 400 + digits.log2) (negative : Bool)
    : (⟨negative, digits, .negSucc exponent⟩ : Decimal).toScalar
        =
      .ofRatio negative digits (Nat.pow 10 (exponent + 1)) := by
  have hlow : ¬(digits = 0 ∨ Int.negSucc exponent < -(400 + (digits.log2 : Int))) := by omega
  have hhigh : ¬400 ≤ Int.negSucc exponent := by omega
  unfold toScalar
  rw [if_neg hlow, if_neg hhigh]

theorem pow_five_pos (n : Nat) : 0 < Nat.pow 5 n := Nat.pow_pos (by decide)

theorem mul_pow_ne_zero {units : Nat} (h : units ≠ 0) (n : Nat) : units * Nat.pow 5 n ≠ 0 :=
  Nat.mul_ne_zero h (Nat.ne_of_gt (pow_five_pos n))

theorem le_log2_mul_pow {units : Nat} (h : units ≠ 0) (n : Nat)
    : n ≤ (units * Nat.pow 5 n).log2 := by
  rw [Nat.le_log2 (mul_pow_ne_zero h n)]
  calc
    2 ^ n ≤ Nat.pow 5 n := Nat.pow_le_pow_left (by decide) n
    _ ≤ units * Nat.pow 5 n := Nat.le_mul_of_pos_left _ (by omega)

theorem pow_ten_eq (n : Nat) : Nat.pow 10 n = Nat.pow 5 n * (1 <<< n) := by
  rw [Nat.one_shiftLeft]
  exact Nat.mul_pow 5 2 n

theorem toScalar_mul_pow {units : Nat} (h : units ≠ 0) {n : Nat} {exponent : Int}
    (hexponent : exponent = -n) (hn : 0 < n) (negative : Bool)
    : (⟨negative, units * Nat.pow 5 n, exponent⟩ : Decimal).toScalar
        =
      .ofRatio negative units (1 <<< n) := by
  have hlog := le_log2_mul_pow h n
  have hsucc : n - 1 + 1 = n := by omega
  have hnegSucc : exponent = .negSucc (n - 1) := by omega
  rw [hnegSucc, toScalar_negSucc (mul_pow_ne_zero h _) (by omega), hsucc, pow_ten_eq]
  rw [Nat.mul_comm units, Scalar.ofRatio_mul_left (pow_five_pos _)]

theorem toScalar_shortest (tie : Tie) (x : Binary64) : (shortest tie x).toScalar = .finite x := by
  unfold shortest
  split
  . next h =>
    rw [toScalar_of_digits_eq_zero rfl]
    rcases x with ⟨negative, units, hunits⟩
    subst h
    rfl
  . next h =>
    generalize 1383 = n
    induction n with
    | zero =>
      rw [shortest.go]
      generalize hn : 1074 = n
      rw [toScalar_mul_pow h (by omega) (by omega), ← hn]
      exact Scalar.ofRatio_units x
    | succ n ih =>
      unfold shortest.go
      cases hgrid : onGrid? tie x ((n + 1 : Nat) - 1074 : Int) with
      | none => exact ih
      | some d => exact toScalar_of_onGrid? hgrid

theorem toScalar_shift (negative : Bool) (digits : Nat) {zeros : Nat} (h : zeros < 400)
    : (⟨negative, digits * Nat.pow 10 (zeros + 1), -1⟩ : Decimal).toScalar
        =
      (⟨negative, digits, zeros⟩ : Decimal).toScalar := by
  by_cases hdigits : digits = 0
  . rw [toScalar_of_digits_eq_zero (by simp [hdigits]), toScalar_of_digits_eq_zero hdigits]
  . have hpos : 0 < Nat.pow 10 (zeros + 1) := Nat.pow_pos (by decide)
    have hproduct : digits * Nat.pow 10 (zeros + 1) ≠ 0 := Nat.mul_ne_zero hdigits (by omega)
    have hten : digits * Nat.pow 10 (zeros + 1) = Nat.pow 10 1 * (digits * Nat.pow 10 zeros) := by
      simp only [Nat.pow_eq, Nat.pow_succ, Nat.pow_zero]
      ac_rfl
    have hexponent : (-1 : Int) = .negSucc 0 := by rfl
    have hzeros : (zeros : Int) = .ofNat zeros := by rfl
    rw [hexponent, hzeros, toScalar_negSucc hproduct (by omega), toScalar_ofNat hdigits h, hten]
    exact Scalar.ofRatio_mul_left (by decide) negative (digits * Nat.pow 10 zeros) 1

end Decimal

end FormLogic
