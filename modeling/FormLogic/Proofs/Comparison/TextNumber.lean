import FormLogic.Proofs.Comparison.Coherence
import FormLogic.Proofs.Number.Literal
import Mathlib.Data.List.Forall2
import Mathlib.Data.Nat.Digits.Defs

/-!
This module contains the texts that are taken for numbers. They are the literals of a grammar, and
besides them those with a plus sign behind the announcement of a base, which the grammar does not
have.
-/

namespace FormLogic

namespace Scalar

def IsDigitOf (base : Nat) (c : Char) (d : Nat) : Prop :=
  d < base ∧ (c = d.digitChar ∨ c = d.digitChar.toUpper)

/--
Digits that stand for a number below `2 ^ 64`, the highest place first.
-/
def IsWord (base : Nat) (ds : List Char) : Prop :=
  ds ≠ [] ∧ ∃ places, List.Forall₂ (IsDigitOf base) ds places
    ∧ Nat.ofDigits base places.reverse < 0x10000000000000000

def announcements : List (Char × Nat) :=
  [('x', 16), ('X', 16), ('o', 8), ('O', 8), ('b', 2), ('B', 2)]

inductive IsLiteral : List Char → Prop where
  | blank : IsLiteral []
  | infinity {sign : List Char} (hsign : Numeral.IsSign sign)
      : IsLiteral (sign ++ "Infinity".toList)
  | radix {mark : Char} {base : Nat} {ds : List Char} (hmark : (mark, base) ∈ announcements)
      (hds : IsWord base ds) : IsLiteral ('0' :: mark :: ds)
  | decimal {cs : List Char} (h : Numeral.IsDecimal cs) : IsLiteral cs

inductive IsSignedRadix : List Char → Prop where
  | plus {mark : Char} {base : Nat} {ds : List Char} (hmark : (mark, base) ∈ announcements)
      (hds : IsWord base ds) : IsSignedRadix ('0' :: mark :: '+' :: ds)

theorem toNat_digitChar_letter {n : Nat} (h : n < 6)
    : (n + 10).digitChar.toNat = 97 + n ∧ (n + 10).digitChar.toUpper.toNat = 65 + n := by
  revert n
  decide

theorem isDigitOf_hexDigit? {c : Char} {d : Nat} (h : Text.hexDigit? c = some d)
    : IsDigitOf 16 c d := by
  unfold IsDigitOf
  rw [← Char.toNat_inj, ← Char.toNat_inj]
  unfold Text.hexDigit? at h
  simp only [Char.isDigit, ge_iff_le, Bool.and_eq_true, decide_eq_true_eq, Char.le_def,
    UInt32.le_iff_toNat_le] at h
  split at h
  . next hdigit =>
    have hlow : 48 ≤ c.toNat := hdigit.1
    have hhigh : c.toNat ≤ 57 := hdigit.2
    have hd : c.toNat - 48 = d := by simpa using h
    rw [Nat.toNat_digitChar_of_lt_ten (by omega)]
    omega
  . split at h
    . next hlower =>
      have hlow : 97 ≤ c.toNat := hlower.1
      have hhigh : c.toNat ≤ 102 := hlower.2
      have hd : c.toNat - 97 + 10 = d := by simpa using h
      have hchar := (toNat_digitChar_letter (n := c.toNat - 97) (by omega)).1
      rw [hd] at hchar
      omega
    . split at h
      . next hupper =>
        have hlow : 65 ≤ c.toNat := hupper.1
        have hhigh : c.toNat ≤ 70 := hupper.2
        have hd : c.toNat - 65 + 10 = d := by simpa using h
        have hchar := (toNat_digitChar_letter (n := c.toNat - 65) (by omega)).2
        rw [hd] at hchar
        omega
      . cases h

theorem hexDigit?_of_isDigitOf {c : Char} {d : Nat} (h : IsDigitOf 16 c d)
    : Text.hexDigit? c = some d := by
  rcases h with ⟨hlt, hc⟩
  rcases hc with rfl | rfl
  . revert d
    decide
  . revert d
    decide

def shifted? (base : Nat) (value : Nat) (c : Char) : Option Nat := do
  let d ← Text.hexDigit? c
  guard (d < base)
  return base * value + d

theorem shifted?_eq_some_iff {base : Nat} (hbase : base ≤ 16) (value : Nat) (c : Char)
    (result : Nat)
    : shifted? base value c = some result
        ↔
      ∃ d, IsDigitOf base c d ∧ base * value + d = result := by
  unfold shifted?
  constructor
  . intro h
    cases hd : Text.hexDigit? c with
    | none => simp [hd] at h
    | some d =>
      have hdigit := isDigitOf_hexDigit? hd
      by_cases hlt : d < base
      . refine ⟨d, ⟨hlt, hdigit.2⟩, ?_⟩
        simpa [hd, hlt, guard] using h
      . simp [hd, hlt, guard] at h
  . rintro ⟨d, ⟨hlt, hc⟩, rfl⟩
    have hd := hexDigit?_of_isDigitOf ⟨Nat.lt_of_lt_of_le hlt hbase, hc⟩
    simp [hd, hlt, guard]

theorem foldlM_shifted?_eq_some_iff {base : Nat} (hbase : base ≤ 16) (ds : List Char)
    (value result : Nat)
    : ds.foldlM (shifted? base) value = some result
        ↔
      ∃ places, List.Forall₂ (IsDigitOf base) ds places
        ∧ places.foldl (fun value d => base * value + d) value = result := by
  induction ds generalizing value with
  | nil => simp
  | cons c ds ih =>
    rw [List.foldlM_cons, Option.bind_eq_bind, Option.bind_eq_some_iff]
    simp only [shifted?_eq_some_iff hbase, ih, List.forall₂_cons_left_iff]
    constructor
    . rintro ⟨_, ⟨d, hd, rfl⟩, places, hplaces, rfl⟩
      exact ⟨d :: places, ⟨d, places, hd, hplaces, rfl⟩, rfl⟩
    . rintro ⟨_, ⟨d, places, hd, hplaces, rfl⟩, rfl⟩
      exact ⟨base * value + d, ⟨d, hd, rfl⟩, places, hplaces, rfl⟩

theorem ofDigits_reverse (base : Nat) (places : List Nat)
    : Nat.ofDigits base places.reverse = places.foldl (fun value d => base * value + d) 0 := by
  rw [Nat.ofDigits_eq_foldr, List.foldr_reverse]
  simp only [Nat.cast_id, Nat.add_comm]

def word? (base : Nat) (ds : List Char) : Option Nat := do
  guard (!ds.isEmpty)
  let value ← ds.foldlM (shifted? base) 0
  guard (value < 0x10000000000000000)
  return value

theorem isSome_word?_iff {base : Nat} (hbase : base ≤ 16) (ds : List Char)
    : (word? base ds).isSome ↔ IsWord base ds := by
  unfold word? IsWord
  constructor
  . intro h
    cases hfold : ds.foldlM (shifted? base) 0 with
    | none => simp [hfold] at h
    | some value =>
      have ⟨places, hplaces, hvalue⟩ := (foldlM_shifted?_eq_some_iff hbase ds 0 value).mp hfold
      by_cases hnonempty : ds = []
      . simp [hnonempty, guard] at h
      . by_cases hlt : value < 0x10000000000000000
        . refine ⟨hnonempty, places, hplaces, ?_⟩
          rw [ofDigits_reverse, hvalue]
          exact hlt
        . simp [hfold, hlt, guard] at h
  . rintro ⟨hnonempty, places, hplaces, hlt⟩
    have hfold := (foldlM_shifted?_eq_some_iff hbase ds 0 _).mpr ⟨places, hplaces, rfl⟩
    rw [ofDigits_reverse] at hlt
    simp [hfold, hnonempty, hlt, guard]

theorem radixValue?_plus (base : Nat) (ds : List Char)
    : radixValue? base ('+' :: ds) = word? base ds := by rfl

theorem radixValue?_of_head? (base : Nat) {cs : List Char} (h : ∀ c ∈ cs.head?, c ≠ '+')
    : radixValue? base cs = word? base cs := by
  unfold radixValue?
  dsimp only
  split
  . exact absurd rfl (h '+' rfl)
  . rfl

theorem not_isWord_plus {base : Nat} (hbase : base ≤ 16) (ds : List Char)
    : ¬IsWord base ('+' :: ds) := by
  rintro ⟨_, places, hplaces, _⟩
  rw [List.forall₂_cons_left_iff] at hplaces
  rcases hplaces with ⟨d, _, ⟨hlt, hc⟩, _, _⟩
  have hplus := hexDigit?_of_isDigitOf ⟨Nat.lt_of_lt_of_le hlt hbase, hc⟩
  have hnone : Text.hexDigit? '+' = none := by decide
  rw [hnone] at hplus
  cases hplus

theorem isSome_radixValue?_iff {base : Nat} (hbase : base ≤ 16) (cs : List Char)
    : (radixValue? base cs).isSome
        ↔
      IsWord base cs ∨ ∃ ds, cs = '+' :: ds ∧ IsWord base ds := by
  by_cases hplus : ∃ ds, cs = '+' :: ds
  . rcases hplus with ⟨ds, rfl⟩
    have hnot := not_isWord_plus hbase ds
    rw [radixValue?_plus, isSome_word?_iff hbase]
    simp [hnot]
  . have hhead : ∀ c ∈ cs.head?, c ≠ '+' := by
      rintro c hc rfl
      rw [Option.mem_def, List.head?_eq_some_iff] at hc
      exact hplus hc
    have hnot : ¬∃ ds, cs = '+' :: ds ∧ IsWord base ds := by
      rintro ⟨ds, hcs, _⟩
      exact hplus ⟨ds, hcs⟩
    rw [radixValue?_of_head? base hhead, isSome_word?_iff hbase, or_iff_left hnot]

theorem le_of_mem_announcements {mark : Char} {base : Nat} (h : (mark, base) ∈ announcements)
    : base ≤ 16 := by
  simp only [announcements, List.mem_cons, Prod.mk.injEq, List.not_mem_nil, or_false] at h
  omega

theorem announced?_eq_some_iff (cs : List Char) (base : Nat) (ds : List Char)
    : announced? cs = some (base, ds)
        ↔
      ∃ mark, (mark, base) ∈ announcements ∧ cs = '0' :: mark :: ds := by
  constructor
  . intro h
    unfold announced? at h
    split at h
    . next c rest =>
      refine ⟨c, ?_⟩
      split at h
      . next hc =>
        cases h
        rcases hc with rfl | rfl <;> simp [announcements]
      . split at h
        . next hc =>
          cases h
          rcases hc with rfl | rfl <;> simp [announcements]
        . split at h
          . next hc =>
            cases h
            rcases hc with rfl | rfl <;> simp [announcements]
          . cases h
    . cases h
  . rintro ⟨mark, hmark, rfl⟩
    simp only [announcements, List.mem_cons, Prod.mk.injEq, List.not_mem_nil, or_false] at hmark
    rcases hmark with ⟨rfl, rfl⟩ | ⟨rfl, rfl⟩ | ⟨rfl, rfl⟩ | ⟨rfl, rfl⟩ | ⟨rfl, rfl⟩ | ⟨rfl, rfl⟩
    all_goals
      rfl

theorem announced?_of_isDecimal {cs : List Char} (h : Numeral.IsDecimal cs)
    : announced? cs = none := by
  rw [Option.eq_none_iff_forall_ne_some]
  rintro ⟨base, ds⟩ hannounced
  rw [announced?_eq_some_iff] at hannounced
  rcases hannounced with ⟨mark, hmark, rfl⟩
  have hchar := Numeral.isNumeralChar_of_isDecimal h mark (by simp)
  have hmarks : ∀ entry ∈ announcements, Numeral.isNumeralChar entry.1 = false := by
    simp [announcements, Numeral.isNumeralChar]
  rw [hmarks _ hmark] at hchar
  cases hchar

theorem ofRatio_ne_notANumber (negative : Bool) (num den : Nat)
    : ofRatio negative num den ≠ notANumber := by
  unfold ofRatio
  dsimp only
  split <;> simp

theorem toScalar_ne_notANumber (d : Decimal) : d.toScalar ≠ notANumber := by
  unfold Decimal.toScalar
  split
  . simp
  . split
    . simp
    . split
      . apply ofRatio_ne_notANumber
      . apply ofRatio_ne_notANumber

theorem isLiteral_or_isSignedRadix_iff {cs : List Char} (hblank : cs ≠ [])
    (hinfinity : ∀ sign, Numeral.IsSign sign → cs ≠ sign ++ "Infinity".toList)
    : IsLiteral cs ∨ IsSignedRadix cs
        ↔
      Numeral.IsDecimal cs
        ∨ ∃ base ds, announced? cs = some (base, ds) ∧ (radixValue? base ds).isSome := by
  constructor
  . rintro (hliteral | hsigned)
    . cases hliteral with
      | blank => exact absurd rfl hblank
      | infinity hsign => exact absurd rfl (hinfinity _ hsign)
      | @radix mark base ds hmark hds =>
        refine .inr ⟨base, ds, ?_, ?_⟩
        . rw [announced?_eq_some_iff]
          exact ⟨mark, hmark, rfl⟩
        . rw [isSome_radixValue?_iff (le_of_mem_announcements hmark)]
          exact .inl hds
      | decimal h => exact .inl h
    . cases hsigned with
      | @plus mark base ds hmark hds =>
        refine .inr ⟨base, '+' :: ds, ?_, ?_⟩
        . rw [announced?_eq_some_iff]
          exact ⟨mark, hmark, rfl⟩
        . rw [isSome_radixValue?_iff (le_of_mem_announcements hmark)]
          exact .inr ⟨ds, rfl, hds⟩
  . rintro (hdecimal | ⟨base, ds, hannounced, hvalue⟩)
    . exact .inl (.decimal hdecimal)
    . rw [announced?_eq_some_iff] at hannounced
      rcases hannounced with ⟨mark, hmark, rfl⟩
      rw [isSome_radixValue?_iff (le_of_mem_announcements hmark)] at hvalue
      rcases hvalue with hds | ⟨ds, rfl, hds⟩
      . exact .inl (.radix hmark hds)
      . exact .inr (.plus hmark hds)

theorem not_infinity {cs : List Char}
    (hpositive : ¬(cs = "Infinity".toList ∨ cs = "+Infinity".toList))
    (hnegative : cs ≠ "-Infinity".toList)
    : ∀ sign, Numeral.IsSign sign → cs ≠ sign ++ "Infinity".toList := by
  rw [not_or] at hpositive
  rintro sign (rfl | rfl | rfl)
  . exact hpositive.1
  . exact hpositive.2
  . exact hnegative

theorem ofText_ne_notANumber_iff (text : List Char)
    : ofText text ≠ notANumber ↔ IsLiteral (Text.trim text) ∨ IsSignedRadix (Text.trim text) := by
  unfold ofText
  dsimp only
  generalize Text.trim text = cs
  split
  . next hblank =>
    rw [List.isEmpty_iff] at hblank
    simp [hblank, IsLiteral.blank]
  . next hblank =>
    rw [List.isEmpty_iff] at hblank
    split
    . next hinfinity =>
      refine iff_of_true (by simp) (.inl ?_)
      rcases hinfinity with rfl | rfl
      . exact @IsLiteral.infinity [] (.inl rfl)
      . exact @IsLiteral.infinity ['+'] (.inr (.inl rfl))
    . next hpositive =>
      split
      . next hnegative =>
        refine iff_of_true (by simp) (.inl ?_)
        rw [hnegative]
        exact @IsLiteral.infinity ['-'] (.inr (.inr rfl))
      . next hnegative =>
        rw [isLiteral_or_isSignedRadix_iff hblank (not_infinity hpositive hnegative)]
        split
        . next base ds hannounced =>
          have hdecimal : ¬Numeral.IsDecimal cs := by
            intro h
            rw [announced?_of_isDecimal h] at hannounced
            cases hannounced
          rw [hannounced, or_iff_right hdecimal]
          cases hvalue : radixValue? base ds with
          | none => simp [hvalue]
          | some value => simp [hvalue, ofInt, ofRatio_ne_notANumber]
        . next hannounced =>
          rw [hannounced, ← Numeral.isSome_free?_iff]
          cases Numeral.free? cs with
          | none => simp
          | some numeral => simp [toScalar_ne_notANumber]

theorem not_isLiteral_of_isSignedRadix {cs : List Char} (h : IsSignedRadix cs)
    : ¬IsLiteral cs := by
  intro hliteral
  cases h with
  | @plus mark base ds hmark hds =>
    generalize hcs : '0' :: mark :: '+' :: ds = cs at hliteral
    cases hliteral with
    | blank => cases hcs
    | infinity hsign => rcases hsign with rfl | rfl | rfl <;> simp at hcs
    | @radix literalMark literalBase literalDs hliteralMark hliteralDs =>
      cases hcs
      exact not_isWord_plus (le_of_mem_announcements hliteralMark) ds hliteralDs
    | decimal hdecimal =>
      have hannounced := announced?_of_isDecimal hdecimal
      rw [(announced?_eq_some_iff cs base ('+' :: ds)).mpr ⟨mark, hmark, hcs.symm⟩] at hannounced
      cases hannounced

theorem isSome_rank?_iff (x : Scalar) : x.rank?.isSome ↔ x ≠ notANumber := by
  cases x with
  | notANumber => simp [rank?]
  | infinite negative => cases negative <;> simp [rank?]
  | finite value => simp [rank?]

theorem isSome_compare?_iff (a b : Scalar)
    : (a.compare? b).isSome ↔ a ≠ notANumber ∧ b ≠ notANumber := by
  rw [← isSome_rank?_iff, ← isSome_rank?_iff]
  unfold compare?
  cases a.rank? with
  | none => simp
  | some x => cases b.rank? <;> simp

end Scalar

namespace Operator

theorem exists_relational_iff (a b : Option Json)
    : (∃ op ∈ relational, op.relates a b = true) ↔ (order? a b).isSome := by
  simp only [relational, List.exists_mem_cons_iff, relates]
  rcases order? a b with _ | order
  . simp
  . cases order <;> simp

theorem exists_ofValue_eq_scalar {v : Json} (h : ¬v.isTextual)
    : ∃ x, Comparand.ofValue (some v) = .scalar x ∧ x ≠ .notANumber := by
  cases v with
  | null => exact ⟨.ofInt 0, rfl, by simp [Scalar.ofInt, Scalar.ofRatio_ne_notANumber]⟩
  | bool b => exact ⟨.ofInt _, rfl, by simp [Scalar.ofInt, Scalar.ofRatio_ne_notANumber]⟩
  | number n =>
    have ⟨rank, hrank⟩ := n.exists_rank?_toScalar
    refine ⟨n.toScalar, rfl, ?_⟩
    rw [← Scalar.isSome_rank?_iff, hrank]
    rfl
  | _ => exact absurd rfl h

theorem order?_isSome_iff_of_isTextual {w v : Json} (hw : w.isTextual) (hv : ¬v.isTextual)
    : (order? (some w) (some v)).isSome ↔ Scalar.ofText w.plainText ≠ .notANumber := by
  have ⟨x, hvalue, hx⟩ := exists_ofValue_eq_scalar hv
  unfold order?
  rw [ofValue_eq_text hw, hvalue]
  apply Iff.trans (Scalar.isSome_compare?_iff _ _)
  exact and_iff_left hx

theorem texts_taken_for_numbers (text : List Char)
    : (Scalar.ofText text ≠ .notANumber
        ↔
      Scalar.IsLiteral (Text.trim text) ∨ Scalar.IsSignedRadix (Text.trim text))
        ∧ ((Scalar.ofText text ≠ .notANumber ↔ Scalar.IsLiteral (Text.trim text))
            ↔
          ¬Scalar.IsSignedRadix (Text.trim text))
        ∧ ∀ w v : Json, w.isTextual → w.plainText = text → ¬v.isTextual
          → ((∃ op ∈ relational, op.relates (some w) (some v) = true)
                ↔
              Scalar.ofText text ≠ .notANumber)
            ∧ ((∃ op ∈ relational, op.relates (some v) (some w) = true)
                ↔
              Scalar.ofText text ≠ .notANumber) := by
  have htaken := Scalar.ofText_ne_notANumber_iff text
  refine ⟨htaken, ?_, ?_⟩
  . rw [htaken]
    constructor
    . intro h hsigned
      exact Scalar.not_isLiteral_of_isSignedRadix hsigned (h.mp (.inr hsigned))
    . intro hsigned
      rw [or_iff_left hsigned]
  . rintro w v hw rfl hv
    rw [← order?_isSome_iff_of_isTextual hw hv, exists_relational_iff, exists_relational_iff,
      ← map_swap_order?, Option.isSome_map]
    exact ⟨.rfl, .rfl⟩

theorem texts_taken_for_numbers_in_array
    : let w : Json := .array [.string "\t0B101 "]
      let v : Json := .null
      w.isTextual ∧ w.plainText = "\t0B101 ".toList ∧ ¬v.isTextual
        ∧ (∃ op ∈ relational, op.relates (some w) (some v) = true)
        ∧ (∃ op ∈ relational, op.relates (some v) (some w) = true) := by
  intro w v
  have hw : w.isTextual := rfl
  have htext : w.plainText = "\t0B101 ".toList := by decide
  have hv : ¬v.isTextual := by decide
  have htrim : Text.trim "\t0B101 ".toList = ['0', 'B', '1', '0', '1'] := by decide
  have hword : Scalar.IsWord 2 ['1', '0', '1'] := by
    rw [← Scalar.isSome_word?_iff (by decide)]
    decide
  have hliteral : Scalar.IsLiteral (Text.trim "\t0B101 ".toList) := by
    rw [htrim]
    exact .radix (by simp [Scalar.announcements]) hword
  have ⟨htaken, _, hrelational⟩ := texts_taken_for_numbers "\t0B101 ".toList
  have ⟨hleft, hright⟩ := hrelational w v hw htext hv
  have hnumber := htaken.mpr (.inl hliteral)
  exact ⟨hw, htext, hv, hleft.mpr hnumber, hright.mpr hnumber⟩

theorem number_of_plus_behind_announcement
    : let text := "0x+5"
      let five : Json := .number (.whole 5 (by decide))
      Scalar.ofText text.toList ≠ .notANumber ∧ ¬Scalar.IsLiteral (Text.trim text.toList)
        ∧ greaterOrEqual.relates (some (.string text)) (some five) = true := by
  intro text five
  have htrim : Text.trim text.toList = ['0', 'x', '+', '5'] := by decide
  have hword : Scalar.IsWord 16 ['5'] := by
    rw [← Scalar.isSome_word?_iff (by decide)]
    decide
  have hsigned : Scalar.IsSignedRadix (Text.trim text.toList) := by
    rw [htrim]
    exact .plus (by simp [Scalar.announcements]) hword
  refine ⟨?_, Scalar.not_isLiteral_of_isSignedRadix hsigned, ?_⟩
  . rw [Scalar.ofText_ne_notANumber_iff]
    exact .inr hsigned
  . decide +kernel

end Operator

end FormLogic
