import FormLogic.Proofs.Comparison.Sameness
import FormLogic.Proofs.Number.Numeral
import FormLogic.Proofs.Number.Rounding

/-!
This module contains what the plain text of numbers says about their value. Whole numbers of more
than 53 bits are rounded where numbers are compared, but their plain text has all of their digits.
So the plain texts of two numbers that compare as equal are the same just if their values are.
-/

namespace FormLogic

namespace Binary64

theorem roundUnits_one_le (units : Nat) : roundUnits units 1 ≤ 2 * units := by
  by_cases hzero : units = 0
  . rw [hzero]
    decide
  . have hden : 2 ^ excessBits units ≤ units :=
      Nat.le_trans (Nat.pow_le_pow_right (by decide) (Nat.sub_le _ _)) (Nat.log2_self_le hzero)
    unfold roundUnits
    rw [Nat.div_one]
    dsimp only
    generalize excessBits units = shift at hden
    rw [Nat.shiftLeft_eq, Nat.one_shiftLeft]
    have hround := roundHalfEven_le units (2 ^ shift)
    have hpos := Nat.div_pos hden (Nat.two_pow_pos shift)
    calc
      roundHalfEven units (2 ^ shift) * 2 ^ shift
        ≤ 2 * (units / 2 ^ shift) * 2 ^ shift := Nat.mul_le_mul_right _ (by omega)
      _ = 2 * (units / 2 ^ shift * 2 ^ shift) := by rw [Nat.mul_assoc]
      _ ≤ 2 * units := Nat.mul_le_mul_left 2 (Nat.div_mul_le_self _ _)

theorem exists_roundUnits_eq_shiftLeft (n bits : Nat)
    : ∃ k, roundUnits (n <<< bits) 1 = k <<< bits := by
  unfold roundUnits
  dsimp only
  generalize excessBits (n <<< bits / 1) = shift
  cases Nat.le_total shift bits with
  | inl hle =>
    -- The number has few enough bits to be kept.
    have hdvd : 2 ^ shift ∣ n <<< bits := by
      rw [Nat.shiftLeft_eq]
      exact Nat.dvd_mul_left_of_dvd (Nat.pow_dvd_pow 2 hle) _
    refine ⟨n, ?_⟩
    rw [Nat.one_shiftLeft, roundHalfEven_of_dvd (Nat.two_pow_pos shift) hdvd, Nat.shiftLeft_eq]
    exact Nat.div_mul_cancel hdvd
  | inr hle =>
    refine ⟨roundHalfEven (n <<< bits) (1 <<< shift) <<< (shift - bits), ?_⟩
    rw [← Nat.shiftLeft_add, Nat.sub_add_cancel hle]

theorem shiftRight_mul_one_shiftLeft (n bits : Nat) : (n * 1 <<< bits) >>> bits = n := by
  rw [Nat.shiftRight_eq_div_pow, Nat.one_shiftLeft]
  exact Nat.mul_div_cancel _ (Nat.two_pow_pos bits)

theorem natAbs_signed (x : Binary64) : x.signed.natAbs = x.units := by
  unfold signed
  split <;> omega

theorem negative_eq_of_signed_eq_mul {x : Binary64} (hx : x.units ≠ 0) {value : Int} {one : Nat}
    (hone : 0 < one) (h : x.signed = value * one) : x.negative = decide (value < 0) := by
  unfold signed at h
  cases hnegative : x.negative with
  | true =>
    rw [hnegative, if_pos rfl] at h
    have : ¬0 ≤ value := by
      intro hvalue
      have := Int.mul_nonneg hvalue (Int.natCast_nonneg one)
      omega
    simpa using this
  | false =>
    rw [hnegative, if_neg Bool.false_ne_true] at h
    have : ¬value < 0 := by
      intro hvalue
      have := Int.mul_neg_of_neg_of_pos hvalue (Int.natCast_pos.mpr hone)
      omega
    simpa using this

end Binary64

namespace Scalar

theorem compare?_eq_some_eq_iff (a b : Scalar)
    : a.compare? b = some .eq ↔ ∃ rank, a.rank? = some rank ∧ b.rank? = some rank := by
  unfold compare?
  cases a.rank? with
  | none => simp
  | some x =>
    cases b.rank? with
    | none => simp
    | some y =>
      have hcompare : (compare x.1 y.1).then (compare x.2 y.2) = .eq ↔ y = x := by
        rw [Ordering.then_eq_eq, Std.compare_eq_iff_eq, Std.compare_eq_iff_eq, eq_comm (a := y)]
        rw [Prod.ext_iff]
      simp [hcompare]

theorem exists_rank?_ofInt_eq {value : Int}
    (h : -0x8000000000000000 ≤ value ∧ value < 0x10000000000000000)
    : ∃ rounded : Int, rounded.natAbs < Nat.pow 10 21
        ∧ (ofInt value).rank? = some ((0 : Int), rounded * (1 <<< 1074 : Nat)) := by
  have ⟨k, hk⟩ := Binary64.exists_roundUnits_eq_shiftLeft value.natAbs 1074
  have hbound : k ≤ 2 * value.natAbs := by
    have hle := Binary64.roundUnits_one_le (value.natAbs <<< 1074)
    rw [hk, Binary64.shiftLeft_eq_mul k, Binary64.shiftLeft_eq_mul value.natAbs,
      ← Nat.mul_assoc] at hle
    exact Nat.le_of_mul_le_mul_right hle (Binary64.one_shiftLeft_pos 1074)
  have hpow : k < Nat.pow 10 21 := by
    have : 0x20000000000000000 < Nat.pow 10 21 := by decide
    omega
  have hlimit : k <<< 1074 < Binary64.limit := by
    have : Binary64.limit = 1 <<< 1024 * 1 <<< 1074 := by decide
    rw [Binary64.shiftLeft_eq_mul k, this]
    apply Nat.mul_lt_mul_of_pos_right
    . exact Nat.lt_trans hpow (by decide)
    . exact Binary64.one_shiftLeft_pos 1074
  unfold ofInt ofRatio
  simp only [hk]
  rw [dif_pos hlimit]
  cases hnegative : decide (value < 0) with
  | true =>
    refine ⟨-k, by omega, ?_⟩
    simp only [rank?, Binary64.signed, ↓reduceIte]
    rw [Binary64.shiftLeft_eq_mul k, Int.natCast_mul, Int.neg_mul]
  | false =>
    refine ⟨k, by omega, ?_⟩
    simp only [rank?, Binary64.signed, Bool.false_eq_true, ↓reduceIte]
    rw [Binary64.shiftLeft_eq_mul k, Int.natCast_mul]

end Scalar

namespace Numeral

theorem not_mem_toDigits {n : Nat} {c : Char} (h : c.isDigit = false)
    : c ∉ Nat.toDigits 10 n := by
  intro hc
  have hdigit := isDigit_of_mem_toDigits c hc
  rw [h] at hdigit
  contradiction

theorem writeInt_injective {v w : Int} (h : writeInt v = writeInt w) : v = w := by
  have hdigits : ∀ m n, Nat.toDigits 10 m = Nat.toDigits 10 n → m = n := by
    intro m n heq
    rw [← digitsValue_toDigits m, heq, digitsValue_toDigits]
  have hminus : ∀ m n, '-' :: Nat.toDigits 10 m ≠ Nat.toDigits 10 n := by
    intro m n heq
    have hmem : '-' ∈ Nat.toDigits 10 n := heq ▸ List.mem_cons_self
    exact not_mem_toDigits (by decide) hmem
  unfold writeInt at h
  split at h
  . split at h
    . have := hdigits _ _ (List.cons.inj h).2
      omega
    . exact absurd h (hminus _ _)
  . split at h
    . exact absurd h.symm (hminus _ _)
    . have := hdigits _ _ h
      omega

theorem ne_comma_of_mem_writeInt {v : Int} : ∀ c ∈ writeInt v, c ≠ ',' := by
  intro c hc heq
  have hdigits : ',' ∉ Nat.toDigits 10 v.natAbs := not_mem_toDigits (by decide)
  rw [heq] at hc
  unfold writeInt at hc
  split at hc
  . simp [hdigits] at hc
  . exact hdigits hc

end Numeral

namespace Number

theorem exists_rank?_toScalar (n : Number) : ∃ rank, n.toScalar.rank? = some rank := by
  cases n with
  | whole value fits =>
    have ⟨rounded, _, hrank⟩ := Scalar.exists_rank?_ofInt_eq fits
    exact ⟨_, hrank⟩
  | real x => exact ⟨_, rfl⟩

/--
The value in units of `2 ^ -1074`, in which every number is whole.
-/
def units : Number → Int
  | whole value _ => value * (1 <<< 1074 : Nat)
  | real x => x.signed

theorem plainText_of_units_eq {n : Number} {value : Int} (h : n.units = value * (1 <<< 1074 : Nat))
    (hvalue : value.natAbs < Nat.pow 10 21) : n.plainText = Numeral.writeInt value := by
  have hpos := Binary64.one_shiftLeft_pos 1074
  cases n with
  | whole other fits =>
    have : other = value := Int.eq_of_mul_eq_mul_right (by omega) h
    rw [← this]
    rfl
  | real x =>
    have hunits : x.units = value.natAbs * 1 <<< 1074 := by
      have h : x.signed = value * (1 <<< 1074 : Nat) := h
      rw [← x.natAbs_signed, h, Int.natAbs_mul, Int.natAbs_natCast]
    rw [plainText]
    split
    . next hzero =>
      rw [hunits, Nat.mul_eq_zero] at hzero
      have : value = 0 := by omega
      rw [this]
      rfl
    . next hzero =>
      have hwhole : x.isWhole := by
        unfold Binary64.isWhole
        rw [hunits, Nat.mul_mod_left]
        rfl
      have hpart : x.wholePart = value.natAbs := by
        unfold Binary64.wholePart
        rw [hunits, Binary64.shiftRight_mul_one_shiftLeft]
      have hvalue' : (if x.negative then -(x.wholePart : Int) else x.wholePart) = value := by
        rw [Binary64.negative_eq_of_signed_eq_mul hzero hpos h, hpart]
        simp only [decide_eq_true_eq]
        split <;> omega
      rw [if_pos ⟨hwhole, hpart ▸ hvalue⟩, hvalue']

theorem exists_writeInt_of_rank? {n : Number} {value : Int} (hvalue : value.natAbs < Nat.pow 10 21)
    (h : n.toScalar.rank? = some ((0 : Int), value * (1 <<< 1074 : Nat)))
    : ∃ v : Int, n.plainText = Numeral.writeInt v ∧ n.units = v * (1 <<< 1074 : Nat) := by
  cases n with
  | whole v fits => exact ⟨v, rfl, rfl⟩
  | real x =>
    have hx : (real x).units = value * (1 <<< 1074 : Nat) := (Prod.mk.inj (Option.some.inj h)).2
    exact ⟨value, plainText_of_units_eq hx hvalue, hx⟩

theorem plainText_eq_or_exists_writeInt {n m : Number}
    (h : n.toScalar.compare? m.toScalar = some .eq)
    : (n.plainText = m.plainText ∧ n.units = m.units)
        ∨
      ∃ v w : Int, n.plainText = Numeral.writeInt v ∧ m.plainText = Numeral.writeInt w
        ∧ n.units = v * (1 <<< 1074 : Nat) ∧ m.units = w * (1 <<< 1074 : Nat) := by
  rw [Scalar.compare?_eq_some_eq_iff] at h
  rcases h with ⟨rank, hn, hm⟩
  cases n with
  | whole v fits =>
    rcases Scalar.exists_rank?_ofInt_eq fits with ⟨rounded, hrounded, hrank⟩
    rw [toScalar, hrank] at hn
    rcases exists_writeInt_of_rank? hrounded (hm.trans hn.symm) with ⟨w, htext, hunits⟩
    exact .inr ⟨v, w, rfl, htext, rfl, hunits⟩
  | real x =>
    cases m with
    | whole w fits =>
      rcases Scalar.exists_rank?_ofInt_eq fits with ⟨rounded, hrounded, hrank⟩
      rw [toScalar, hrank] at hm
      rcases exists_writeInt_of_rank? hrounded (hn.trans hm.symm) with ⟨v, htext, hunits⟩
      exact .inr ⟨v, w, htext, rfl, hunits, rfl⟩
    | real y =>
      have hsigned : x.signed = y.signed :=
        (Prod.mk.inj (Option.some.inj (hn.trans hm.symm))).2
      refine .inl ⟨plainText_eq ?_, hsigned⟩
      simpa [same] using hsigned

theorem plainText_eq_of_units_eq {n m : Number} (h : n.toScalar.compare? m.toScalar = some .eq)
    (hunits : n.units = m.units) : n.plainText = m.plainText := by
  cases plainText_eq_or_exists_writeInt h with
  | inl hsame => exact hsame.1
  | inr hwhole =>
    rcases hwhole with ⟨v, w, hn, hm, hv, hw⟩
    have hpos := Binary64.one_shiftLeft_pos 1074
    rw [hv, hw] at hunits
    rw [hn, hm, Int.eq_of_mul_eq_mul_right (by omega) hunits]

theorem units_eq_of_plainText_append {n m : Number}
    (h : n.toScalar.compare? m.toScalar = some .eq) {as bs : List Char}
    (has : ∀ c ∈ as.head?, c = ',') (hbs : ∀ c ∈ bs.head?, c = ',')
    (heq : n.plainText ++ as = m.plainText ++ bs) : n.units = m.units ∧ as = bs := by
  cases plainText_eq_or_exists_writeInt h with
  | inl hsame =>
    rw [hsame.1] at heq
    exact ⟨hsame.2, List.append_cancel_left heq⟩
  | inr hwhole =>
    rcases hwhole with ⟨v, w, hn, hm, hv, hw⟩
    have hspan : ∀ (value : Int) (rest : List Char), (∀ c ∈ rest.head?, c = ',')
        → (Numeral.writeInt value ++ rest).takeWhile (· ≠ ',') = Numeral.writeInt value
          ∧ (Numeral.writeInt value ++ rest).dropWhile (· ≠ ',') = rest := by
      intro value rest hrest
      apply Numeral.span_append
      . simpa using Numeral.ne_comma_of_mem_writeInt
      . simpa using hrest
    have ⟨hn', has'⟩ := hspan v as has
    have ⟨hm', hbs'⟩ := hspan w bs hbs
    rw [hn, hm] at heq
    rw [heq] at hn' has'
    have hvalue := Numeral.writeInt_injective (hn'.symm.trans hm')
    exact ⟨by rw [hv, hw, hvalue], has'.symm.trans hbs'⟩

end Number

end FormLogic
