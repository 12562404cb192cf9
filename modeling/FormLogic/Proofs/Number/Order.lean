import FormLogic.Proofs.Number.Plain

/-!
This module contains the proof that rounding keeps the order of whole numbers. Numbers in between
two neighbours of the format are rounded to one of them, so of two numbers the greater one is never
rounded to a smaller one, but both can be rounded to the same. Where all whole numbers belong to the
format this happens to no two of them.
-/

namespace FormLogic

namespace Binary64

theorem le_roundHalfEven (num den : Nat) : num / den ≤ roundHalfEven num den := by
  unfold roundHalfEven
  grind

theorem roundHalfEven_mono {m n : Nat} (h : m ≤ n) (den : Nat)
    : roundHalfEven m den ≤ roundHalfEven n den := by
  have hdiv : m / den ≤ n / den := Nat.div_le_div_right h
  cases Nat.lt_or_eq_of_le hdiv with
  | inl hlt =>
    calc
      roundHalfEven m den ≤ m / den + 1 := roundHalfEven_le m den
      _ ≤ n / den := hlt
      _ ≤ roundHalfEven n den := le_roundHalfEven n den
  | inr heq =>
    -- Both lie between the same neighbours, so what is left of them decides.
    have hrest : m % den ≤ n % den := by
      have hm := Nat.div_add_mod m den
      have hn := Nat.div_add_mod n den
      rw [heq] at hm
      omega
    unfold roundHalfEven
    grind

theorem roundHalfEven_shiftLeft_le {n bound shift : Nat} (h : n ≤ bound)
    (hdvd : 1 <<< shift ∣ bound)
    : roundHalfEven n (1 <<< shift) <<< shift ≤ bound := by
  have hmono := roundHalfEven_mono h (1 <<< shift)
  rw [Nat.one_shiftLeft] at hdvd hmono ⊢
  rw [roundHalfEven_of_dvd (Nat.two_pow_pos shift) hdvd] at hmono
  rw [Nat.shiftLeft_eq]
  calc
    roundHalfEven n (2 ^ shift) * 2 ^ shift
      ≤ bound / 2 ^ shift * 2 ^ shift := Nat.mul_le_mul_right _ hmono
    _ = bound := Nat.div_mul_cancel hdvd

theorem le_roundHalfEven_shiftLeft {n bound shift : Nat} (h : bound ≤ n)
    (hdvd : 1 <<< shift ∣ bound)
    : bound ≤ roundHalfEven n (1 <<< shift) <<< shift := by
  have hmono := roundHalfEven_mono h (1 <<< shift)
  rw [Nat.one_shiftLeft] at hdvd hmono ⊢
  rw [roundHalfEven_of_dvd (Nat.two_pow_pos shift) hdvd] at hmono
  rw [Nat.shiftLeft_eq]
  calc
    bound = bound / 2 ^ shift * 2 ^ shift := (Nat.div_mul_cancel hdvd).symm
    _ ≤ roundHalfEven n (2 ^ shift) * 2 ^ shift := Nat.mul_le_mul_right _ hmono

theorem roundUnits_mono {m n : Nat} (h : m ≤ n) : roundUnits m 1 ≤ roundUnits n 1 := by
  by_cases hzero : m = 0
  . rw [hzero, roundUnits_one representable_zero]
    apply Nat.zero_le
  . have hlog : m.log2 ≤ n.log2 := by
      rw [Nat.le_log2 (by omega)]
      exact Nat.le_trans (Nat.log2_self_le hzero) h
    have hupper : 2 ^ n.log2 ≤ n := Nat.log2_self_le (by omega)
    have hlower : m < 2 ^ (m.log2 + 1) := Nat.lt_log2_self
    unfold roundUnits
    rw [Nat.div_one, Nat.div_one]
    dsimp only
    by_cases hbits : excessBits m = excessBits n
    . rw [hbits]
      simp only [Nat.shiftLeft_eq]
      exact Nat.mul_le_mul_right _ (roundHalfEven_mono h _)
    . -- Between the two there is a power of two that both roundings keep.
      unfold excessBits at hbits ⊢
      have hbetween : m ≤ 2 ^ n.log2 := by
        have hpow := Nat.pow_le_pow_right Nat.two_pos (show m.log2 + 1 ≤ n.log2 by omega)
        omega
      have hdvd : ∀ shift ≤ n.log2, 1 <<< shift ∣ 2 ^ n.log2 := by
        intro shift hshift
        rw [Nat.one_shiftLeft]
        exact Nat.pow_dvd_pow 2 hshift
      calc
        roundHalfEven m (1 <<< (m.log2 - 52)) <<< (m.log2 - 52)
          ≤ 2 ^ n.log2 := roundHalfEven_shiftLeft_le hbetween (hdvd _ (by omega))
        _ ≤ roundHalfEven n (1 <<< (n.log2 - 52)) <<< (n.log2 - 52) :=
            le_roundHalfEven_shiftLeft hupper (hdvd _ (by omega))

theorem representable_shiftLeft {n : Nat} (h : n ≤ 0x20000000000000)
    : Representable (n <<< 1074) := by
  have hlimit : n <<< 1074 < limit := by
    have hone : limit = 1 <<< 1024 * 1 <<< 1074 := by decide
    have hsmall : 0x20000000000000 < 1 <<< 1024 := by decide
    rw [hone, shiftLeft_eq_mul]
    exact Nat.mul_lt_mul_of_pos_right (Nat.lt_of_le_of_lt h hsmall) (one_shiftLeft_pos 1074)
  cases Nat.lt_or_eq_of_le h with
  | inl hlt => exact ⟨hlimit, n, 1074, hlt, rfl⟩
  | inr heq =>
    -- This number has one bit too many, but only the first of them is set.
    refine ⟨hlimit, 1, 53 + 1074, by decide, ?_⟩
    rw [Nat.shiftLeft_add, heq]
    rfl

theorem shiftLeft_mono {m n : Nat} (h : m ≤ n) (bits : Nat) : m <<< bits ≤ n <<< bits := by
  rw [shiftLeft_eq_mul m, shiftLeft_eq_mul n]
  exact Nat.mul_le_mul_right _ h

theorem roundUnits_pos {n : Nat} (h : 0 < n) : 0 < roundUnits (n <<< 1074) 1 := by
  have hone : roundUnits (1 <<< 1074) 1 = 1 <<< 1074 :=
    roundUnits_one (representable_shiftLeft (by decide))
  have hmono := roundUnits_mono (shiftLeft_mono h 1074)
  rw [hone] at hmono
  exact Nat.lt_of_lt_of_le (one_shiftLeft_pos 1074) hmono

end Binary64

namespace Scalar

def roundedUnits (value : Int) : Int :=
  let units := Binary64.roundUnits (value.natAbs <<< 1074) 1
  if value < 0 then -units else units

theorem natAbs_roundedUnits (value : Int)
    : (roundedUnits value).natAbs = Binary64.roundUnits (value.natAbs <<< 1074) 1 := by
  unfold roundedUnits
  generalize Binary64.roundUnits (value.natAbs <<< 1074) 1 = units
  dsimp only
  split <;> omega

theorem roundedUnits_neg_iff (value : Int) : roundedUnits value < 0 ↔ value < 0 := by
  unfold roundedUnits
  dsimp only
  split
  . next h =>
    have hpos := Binary64.roundUnits_pos (Int.natAbs_pos.mpr (Int.ne_of_lt h))
    generalize Binary64.roundUnits (value.natAbs <<< 1074) 1 = units at hpos
    omega
  . next h =>
    generalize Binary64.roundUnits (value.natAbs <<< 1074) 1 = units
    omega

theorem roundedUnits_mono {v w : Int} (h : v ≤ w) : roundedUnits v ≤ roundedUnits w := by
  have hmono : ∀ {m n : Nat}, m ≤ n
      → Binary64.roundUnits (m <<< 1074) 1 ≤ Binary64.roundUnits (n <<< 1074) 1 := by
    intro m n hle
    exact Binary64.roundUnits_mono (Binary64.shiftLeft_mono hle 1074)
  have hv := natAbs_roundedUnits v
  have hw := natAbs_roundedUnits w
  have hvneg := roundedUnits_neg_iff v
  have hwneg := roundedUnits_neg_iff w
  cases Int.lt_or_le v 0 with
  | inl hnegative =>
    cases Int.lt_or_le w 0 with
    | inl hnegative' =>
      have hle := hmono (show w.natAbs ≤ v.natAbs by omega)
      rw [← hv, ← hw] at hle
      omega
    | inr hpositive => omega
  | inr hpositive =>
    have hle := hmono (show v.natAbs ≤ w.natAbs by omega)
    rw [← hv, ← hw] at hle
    omega

theorem roundedUnits_lt_iff (v w : Int)
    : roundedUnits v < roundedUnits w ↔ v < w ∧ roundedUnits v ≠ roundedUnits w := by
  have hmono : w ≤ v → roundedUnits w ≤ roundedUnits v := roundedUnits_mono
  have hmono' : v ≤ w → roundedUnits v ≤ roundedUnits w := roundedUnits_mono
  omega

theorem roundedUnits_le_iff (v w : Int)
    : roundedUnits v ≤ roundedUnits w ↔ v ≤ w ∨ roundedUnits v = roundedUnits w := by
  have hmono : w ≤ v → roundedUnits w ≤ roundedUnits v := roundedUnits_mono
  have hmono' : v ≤ w → roundedUnits v ≤ roundedUnits w := roundedUnits_mono
  omega

theorem roundedUnits_of_natAbs_le {value : Int} (h : value.natAbs ≤ 0x20000000000000)
    : roundedUnits value = value * (1 <<< 1074 : Nat) := by
  unfold roundedUnits
  rw [Binary64.roundUnits_one (Binary64.representable_shiftLeft h), Binary64.shiftLeft_eq_mul]
  dsimp only
  rw [Int.natCast_mul, ← Int.neg_mul]
  split
  . next hnegative => rw [Int.ofNat_natAbs_of_nonpos (Int.le_of_lt hnegative), Int.neg_neg]
  . next hpositive => rw [Int.natAbs_of_nonneg (Int.not_lt.mp hpositive)]

theorem eq_of_roundedUnits_eq {v w : Int} (hv : v.natAbs < 0x20000000000000)
    (h : roundedUnits v = roundedUnits w) : v = w := by
  have hone : (0 : Int) < (1 <<< 1074 : Nat) :=
    Int.natCast_pos.mpr (Binary64.one_shiftLeft_pos 1074)
  have hexact := roundedUnits_of_natAbs_le (Nat.le_of_lt hv)
  rcases Int.lt_trichotomy v w with hlt | heq | hgt
  . have hnext := roundedUnits_of_natAbs_le (show (v + 1).natAbs ≤ 0x20000000000000 by omega)
    have hle := roundedUnits_mono (show v + 1 ≤ w by omega)
    rw [hnext, ← h, hexact, Int.add_mul, Int.one_mul] at hle
    omega
  . exact heq
  . have hnext := roundedUnits_of_natAbs_le (show (v - 1).natAbs ≤ 0x20000000000000 by omega)
    have hle := roundedUnits_mono (show w ≤ v - 1 by omega)
    rw [hnext, ← h, hexact, Int.sub_mul, Int.one_mul] at hle
    omega

section

variable {v w : Int}
variable (hv : -0x8000000000000000 ≤ v ∧ v < 0x10000000000000000)
variable (hw : -0x8000000000000000 ≤ w ∧ w < 0x10000000000000000)

include hv

theorem rank?_ofInt : (ofInt v).rank? = some ((0 : Int), roundedUnits v) := by
  have ⟨_, _, hrank⟩ := exists_rank?_ofInt_eq hv
  unfold ofInt ofRatio at hrank ⊢
  unfold roundedUnits
  dsimp only at hrank ⊢
  split
  . simp [rank?, Binary64.signed]
  . next hlimit =>
    -- An infinity has another rank than any whole number.
    rw [dif_neg hlimit] at hrank
    cases hnegative : decide (v < 0) with
    | true => simp [hnegative, rank?] at hrank
    | false => simp [hnegative, rank?] at hrank

include hw

theorem compare?_ofInt
    : (ofInt v).compare? (ofInt w) = some (compare (roundedUnits v) (roundedUnits w)) := by
  unfold compare?
  rw [rank?_ofInt hv, rank?_ofInt hw]
  simp

theorem ofInt_eq_iff : ofInt v = ofInt w ↔ roundedUnits v = roundedUnits w := by
  constructor
  . intro h
    have hrank := rank?_ofInt hv
    rw [h, rank?_ofInt hw] at hrank
    exact (Prod.mk.inj (Option.some.inj hrank)).2.symm
  . intro h
    have hnegative : decide (v < 0) = decide (w < 0) := by
      rw [decide_eq_decide, ← roundedUnits_neg_iff, h, roundedUnits_neg_iff]
    have hunits : Binary64.roundUnits (v.natAbs <<< 1074) 1
        = Binary64.roundUnits (w.natAbs <<< 1074) 1 := by
      rw [← natAbs_roundedUnits, h, natAbs_roundedUnits]
    unfold ofInt ofRatio
    simp only [hnegative, hunits]

end

end Scalar

end FormLogic
