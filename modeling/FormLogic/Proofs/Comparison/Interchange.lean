import FormLogic.Proofs.Comparison.TextNumber

/-!
This module contains the values that stand for a whole number: the number, a text with its digits,
or an array with one of these as its only item. They are compared alike with anything that is not
itself compared as a text.
-/

namespace FormLogic

namespace Numeral

/--
The texts of a whole number. A sign and zeros may lead.
-/
inductive IsWhole : List Char → Int → Prop where
  | written {sign ds : List Char} (hsign : IsSign sign) (hnonempty : ds ≠ [])
      (hds : ∀ c ∈ ds, c.isDigit)
      : IsWhole (sign ++ ds) (if sign = ['-'] then -(digitsValue ds : Int) else digitsValue ds)

theorem isWhole_writeInt (value : Int) : IsWhole (writeInt value) value := by
  have hdigits := @isDigit_of_mem_toDigits value.natAbs
  unfold writeInt
  split
  . next hnegative =>
    have h := @IsWhole.written ['-'] _ (.inr (.inr rfl)) Nat.toDigits_ne_nil hdigits
    rw [digitsValue_toDigits, if_pos rfl, Int.ofNat_natAbs_of_nonpos (Int.le_of_lt hnegative),
      Int.neg_neg] at h
    exact h
  . next hpositive =>
    have h := @IsWhole.written [] _ (.inl rfl) Nat.toDigits_ne_nil hdigits
    rw [digitsValue_toDigits, if_neg (by simp), Int.natAbs_of_nonneg (Int.not_lt.mp hpositive)] at h
    exact h

theorem writeInt_eq_toString (value : Int) : writeInt value = (toString value).toList := by
  cases value with
  | ofNat n => simp [writeInt, toString, Int.repr, Nat.repr]
  | negSucc n => simp [writeInt, toString, Int.repr, Nat.repr]

variable {cs : List Char} {value : Int}

theorem isDecimal_of_isWhole (h : IsWhole cs value) : IsDecimal cs := by
  cases h with
  | written hsign hnonempty hds =>
    have h := IsDecimal.written hsign (.whole hnonempty hds) .absent
    rw [List.append_nil] at h
    exact h

theorem exists_free?_of_isWhole (h : IsWhole cs value)
    : ∃ negative ds, free? cs = some ⟨negative, ds, [], none⟩
        ∧ value = if negative then -(digitsValue ds : Int) else digitsValue ds := by
  cases h with
  | @written signed ds hsign hnonempty hds =>
    have hhead : ∀ c ∈ (ds ++ []).head?, c ≠ '+' ∧ c ≠ '-' := not_sign_of_isDigit hnonempty hds
    rw [List.append_nil] at hhead
    refine ⟨decide (signed = ['-']), ds, ?_, by simp⟩
    rw [free?_eq, sign_append_eq hsign hhead]
    dsimp only
    rw [digits_of_forall hds]
    simp [complete?, behindPoint, exponent?, hnonempty]

end Numeral

namespace Text

theorem isBlank_eq_false_of_isNumeralChar {c : Char} (h : Numeral.isNumeralChar c)
    : isBlank c = false := by
  simp only [Numeral.isNumeralChar, Bool.or_eq_true, beq_iff_eq] at h
  rcases h with ((((hdigit | rfl) | rfl) | rfl) | rfl) | rfl
  . have hrange : 48 ≤ c.toNat ∧ c.toNat ≤ 57 := Char.isDigit_iff_toNat.mp hdigit
    simp only [isBlank, Bool.or_eq_false_iff, Bool.and_eq_false_iff, decide_eq_false_iff_not,
      beq_eq_false_iff_ne]
    omega
  all_goals
    decide

theorem trim_padded {before cs after : List Char} (hbefore : ∀ c ∈ before, isBlank c)
    (hafter : ∀ c ∈ after, isBlank c) (hcs : ∀ c ∈ cs, isBlank c = false) (hnonempty : cs ≠ [])
    : trim (before ++ (cs ++ after)) = cs := by
  have hhead : ∀ c ∈ (cs ++ after).head?, isBlank c = false := by
    intro c hc
    rw [List.head?_append_of_ne_nil _ hnonempty] at hc
    exact hcs c (List.mem_of_mem_head? hc)
  have hlast : ∀ c ∈ cs.reverse.head?, isBlank c = false := by
    intro c hc
    exact hcs c (List.mem_reverse.mp (List.mem_of_mem_head? hc))
  have hafter' : ∀ c ∈ after.reverse, isBlank c := by simpa using hafter
  unfold trim
  rw [(Numeral.span_append hbefore hhead).2, List.reverse_append,
    (Numeral.span_append hafter' hlast).2, List.reverse_reverse]

theorem trim_isWhole {before cs after : List Char} {value : Int}
    (hbefore : ∀ c ∈ before, isBlank c) (hcs : Numeral.IsWhole cs value)
    (hafter : ∀ c ∈ after, isBlank c) : trim (before ++ (cs ++ after)) = cs := by
  apply trim_padded hbefore hafter
  . intro c hc
    have hdecimal := Numeral.isDecimal_of_isWhole hcs
    exact isBlank_eq_false_of_isNumeralChar (Numeral.isNumeralChar_of_isDecimal hdecimal c hc)
  . cases hcs with
    | written _ hnonempty _ => simp [hnonempty]

end Text

namespace Scalar

theorem ofText_of_free? {text : List Char} {numeral : Numeral}
    (h : Numeral.free? (Text.trim text) = some numeral)
    : ofText text = numeral.toDecimal.toScalar := by
  unfold ofText
  dsimp only
  generalize Text.trim text = cs at h
  have hdecimal : Numeral.IsDecimal cs := by
    rw [← Numeral.isSome_free?_iff, h]
    rfl
  have hletter : 'I' ∉ cs := by
    intro hc
    exact absurd (Numeral.isNumeralChar_of_isDecimal hdecimal _ hc) (by decide)
  have hblank : ¬cs.isEmpty := by
    intro hempty
    rw [List.isEmpty_iff] at hempty
    rw [hempty] at h
    cases h
  have hpositive : ¬(cs = "Infinity".toList ∨ cs = "+Infinity".toList) := by
    rintro (rfl | rfl)
    . exact hletter (by decide)
    . exact hletter (by decide)
  have hnegative : cs ≠ "-Infinity".toList := by
    rintro rfl
    exact hletter (by decide)
  rw [if_neg hblank, if_neg hpositive, if_neg hnegative, announced?_of_isDecimal hdecimal, h]

theorem rank?_toScalar_whole (negative : Bool) (n : Nat)
    : (⟨negative, n, 0⟩ : Decimal).toScalar.rank?
        =
      (ofInt (if negative then -(n : Int) else n)).rank? := by
  -- Zero has a sign only as a text, which its rank does not show.
  by_cases hzero : n = 0
  . rw [hzero, Decimal.toScalar_of_digits_eq_zero rfl]
    cases negative <;> decide
  . have hscalar := Decimal.toScalar_ofNat hzero (show 0 < 400 by decide) negative
    have hvalue : ofInt (if negative then -(n : Int) else n) = ofRatio negative n 1 := by
      unfold ofInt
      cases negative with
      | true => simp [Nat.pos_of_ne_zero hzero]
      | false => simp [Int.not_lt.mpr (Int.natCast_nonneg n)]
    rw [Nat.pow_eq, Nat.pow_zero, Nat.mul_one] at hscalar
    rw [hvalue, ← hscalar]
    rfl

theorem rank?_ofText_of_isWhole {text : List Char} {value : Int}
    (h : Numeral.IsWhole (Text.trim text) value) : (ofText text).rank? = (ofInt value).rank? := by
  have ⟨negative, ds, hfree, hvalue⟩ := Numeral.exists_free?_of_isWhole h
  have hdecimal : (⟨negative, ds, [], none⟩ : Numeral).toDecimal
      = ⟨negative, Numeral.digitsValue ds, 0⟩ := by
    simp [Numeral.toDecimal]
  rw [ofText_of_free? hfree, hdecimal, rank?_toScalar_whole, hvalue]

theorem compare?_eq_of_rank? {a b : Scalar} (h : a.rank? = b.rank?) (x : Scalar)
    : x.compare? a = x.compare? b := by
  unfold compare?
  rw [h]

end Scalar

namespace Json

/--
The values that stand for a whole number where it is compared with a number.
-/
inductive StandsFor (n : Int) : Json → Prop where
  | number (fits : -0x8000000000000000 ≤ n ∧ n < 0x10000000000000000)
      : StandsFor n (.number (.whole n fits))
  | text {s : String} {before cs after : List Char} (hbefore : ∀ c ∈ before, Text.isBlank c)
      (hcs : Numeral.IsWhole cs n) (hafter : ∀ c ∈ after, Text.isBlank c)
      (hs : s.toList = before ++ (cs ++ after)) : StandsFor n (.string s)
  | item {v : Json} (h : StandsFor n v) : StandsFor n (.array [v])

variable {n : Int} {v : Json}

theorem isNull_eq_of_standsFor (h : v.StandsFor n) : v.isNull = false := by
  cases h with
  | number => rfl
  | text => rfl
  | item => rfl

theorem isWhole_plainText_of_standsFor (h : v.StandsFor n)
    : Numeral.IsWhole (Text.trim v.plainText) n := by
  induction h with
  | number fits =>
    have hwhole := Numeral.isWhole_writeInt n
    have htrim := @Text.trim_isWhole [] _ [] n (by simp) hwhole (by simp)
    rw [List.nil_append, List.append_nil] at htrim
    rw [plainText_number, Number.plainText, htrim]
    exact hwhole
  | text hbefore hcs hafter hs =>
    rw [plainText_string, hs, Text.trim_isWhole hbefore hcs hafter]
    exact hcs
  | item h ih =>
    rw [plainText_array, plainItems_singleton, isNull_eq_of_standsFor h]
    exact ih

theorem rank?_of_standsFor (h : v.StandsFor n)
    : (Comparand.ofValue (some v)).toScalar.rank? = (Scalar.ofInt n).rank? := by
  have hwhole := isWhole_plainText_of_standsFor h
  cases h with
  | number fits => rfl
  | text => exact Scalar.rank?_ofText_of_isWhole hwhole
  | item => exact Scalar.rank?_ofText_of_isWhole hwhole

end Json

namespace Operator

variable {n : Int} {v w x : Json}

theorem order?_eq_of_standsFor (hx : ¬x.isTextual) (hv : v.StandsFor n)
    : order? (some x) (some v) = (Comparand.ofValue (some x)).toScalar.compare? (.ofInt n) := by
  have ⟨y, hy, _⟩ := exists_ofValue_eq_scalar hx
  have hcompare : ∀ b : Comparand, (Comparand.scalar y).compare? b = y.compare? b.toScalar := by
    intro b
    cases b <;> rfl
  unfold order?
  rw [hy, hcompare, Scalar.compare?_eq_of_rank? (Json.rank?_of_standsFor hv)]
  rfl

theorem relates_eq_of_order?_eq {op : Operator} (hop : op ∈ relational) {a b c d : Option Json}
    (h : order? a b = order? c d) : op.relates a b = op.relates c d := by
  simp only [relational, List.mem_cons, List.not_mem_nil, or_false] at hop
  rcases hop with rfl | rfl | rfl | rfl
  all_goals
    simp only [relates, h]

theorem forms_of_whole_number_interchangeable (n : Int)
    : (∀ (s : String) (before after : List Char), (∀ c ∈ before, Text.isBlank c)
        → (∀ c ∈ after, Text.isBlank c)
        → s.toList = before ++ ((toString n).toList ++ after)
        → (Json.string s).StandsFor n)
        ∧ ∀ op ∈ relational, ∀ x v w : Json, ¬x.isTextual → v.StandsFor n → w.StandsFor n
          → op.relates (some x) (some v) = op.relates (some x) (some w)
            ∧ op.relates (some v) (some x) = op.relates (some w) (some x) := by
  constructor
  . intro s before after hbefore hafter hs
    rw [← Numeral.writeInt_eq_toString] at hs
    exact .text hbefore (Numeral.isWhole_writeInt n) hafter hs
  . intro op hop x v w hx hv hw
    have horder : order? (some x) (some v) = order? (some x) (some w) := by
      rw [order?_eq_of_standsFor hx hv, order?_eq_of_standsFor hx hw]
    refine ⟨relates_eq_of_order?_eq hop horder, relates_eq_of_order?_eq hop ?_⟩
    rw [← map_swap_order?, horder, map_swap_order?]

theorem forms_of_whole_number_interchangeable_rounded
    : let x : Json := .number (.whole (-9007199254740992) (by decide))
      let v : Json := .array [.array [.string "\t-9007199254740993\u3000"]]
      let w : Json := .number (.whole (-9007199254740993) (by decide))
      (∀ c ∈ ['\t'], Text.isBlank c)
        ∧ (∀ c ∈ ['\u3000'], Text.isBlank c)
        ∧ "\t-9007199254740993\u3000".toList
            = ['\t'] ++ ((toString (-9007199254740993 : Int)).toList ++ ['\u3000'])
        ∧ lessOrEqual ∈ relational
        ∧ ¬x.isTextual
        ∧ v.StandsFor (-9007199254740993)
        ∧ w.StandsFor (-9007199254740993)
        ∧ lessOrEqual.relates (some x) (some v) = true
        ∧ lessOrEqual.relates (some v) (some x) = true := by
  intro x v w
  have hbefore : ∀ c ∈ ['\t'], Text.isBlank c := by simp [Text.isBlank]
  have hafter : ∀ c ∈ ['\u3000'], Text.isBlank c := by simp [Text.isBlank]
  have hs : "\t-9007199254740993\u3000".toList
      = ['\t'] ++ ((toString (-9007199254740993 : Int)).toList ++ ['\u3000']) := by
    decide
  have hop : lessOrEqual ∈ relational := by decide
  have hx : ¬x.isTextual := by decide
  have ⟨htext, hrelates⟩ := forms_of_whole_number_interchangeable (-9007199254740993)
  have hv : v.StandsFor (-9007199254740993) := .item (.item (htext _ _ _ hbefore hafter hs))
  have hw : w.StandsFor (-9007199254740993) := .number (by decide)
  have ⟨hright, hleft⟩ := hrelates _ hop x v w hx hv hw
  refine ⟨hbefore, hafter, hs, hop, hx, hv, hw, ?_, ?_⟩
  . rw [hright]
    decide +kernel
  . rw [hleft]
    decide +kernel

end Operator

end FormLogic
