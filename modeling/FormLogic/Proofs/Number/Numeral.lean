import FormLogic.Number.Numeral

/-!
This module contains the proof that a numeral is found again at the front of the text that it is
written into, provided that what follows could not belong to it.
-/

namespace FormLogic

namespace Numeral

def writeFraction : List Char → List Char
  | [] => []
  | ds => '.' :: ds

def writeExponent : Option Int → List Char
  | none => []
  | some e => 'e' :: (if e < 0 then '-' else '+') :: Nat.toDigits 10 e.natAbs

def writeUnsigned (n : Numeral) : List Char :=
  n.whole ++ (writeFraction n.fraction ++ writeExponent n.exponent)

def write (n : Numeral) : List Char :=
  if n.negative then '-' :: n.writeUnsigned else n.writeUnsigned

structure IsStrict (n : Numeral) : Prop where
  isWholePart : isWholePart n.whole
  whole : ∀ c ∈ n.whole, c.isDigit
  fraction : ∀ c ∈ n.fraction, c.isDigit

theorem span_append {p : Char → Bool} {cs rest : List Char} (hcs : ∀ c ∈ cs, p c)
    (hrest : ∀ c ∈ rest.head?, p c = false)
    : (cs ++ rest).takeWhile p = cs ∧ (cs ++ rest).dropWhile p = rest := by
  rw [List.takeWhile_append_of_pos hcs, List.dropWhile_append_of_pos hcs]
  cases rest with
  | nil => simp
  | cons c rest => simp [hrest c rfl]

theorem digits_append {ds rest : List Char} (hds : ∀ c ∈ ds, c.isDigit)
    (hrest : ∀ c ∈ rest.head?, c.isDigit = false) : digits (ds ++ rest) = (ds, rest) := by
  have ⟨htake, hdrop⟩ := span_append hds hrest
  unfold digits
  rw [htake, hdrop]

theorem isDigit_of_mem_toDigits {n : Nat} : ∀ c ∈ Nat.toDigits 10 n, c.isDigit := by
  intro c hc
  exact Nat.isDigit_of_mem_toDigits (by omega) (by omega) hc

theorem digitsValue_toDigits (n : Nat) : digitsValue (Nat.toDigits 10 n) = n :=
  Nat.ofDigitChars_ten_toDigits

theorem exponent?_writeExponent (e : Option Int) : exponent? (writeExponent e) = some (e, []) := by
  cases e with
  | none => rfl
  | some e =>
    have hdigits : digits (Nat.toDigits 10 e.natAbs) = (Nat.toDigits 10 e.natAbs, []) := by
      have hrest : ∀ c ∈ ([] : List Char).head?, c.isDigit = false := by simp
      have := digits_append (isDigit_of_mem_toDigits (n := e.natAbs)) hrest
      rwa [List.append_nil] at this
    have hnonempty : (Nat.toDigits 10 e.natAbs).isEmpty = false := by
      rw [List.isEmpty_eq_false_iff]
      exact Nat.toDigits_ne_nil
    have hsign : sign ((if e < 0 then '-' else '+') :: Nat.toDigits 10 e.natAbs)
        = (decide (e < 0), Nat.toDigits 10 e.natAbs) := by
      by_cases h : e < 0
      . simp [h, sign]
      . simp [h, sign]
    have hvalue : (if e < 0 then -(e.natAbs : Int) else e.natAbs) = e := by omega
    unfold writeExponent exponent?
    simp only [true_or, ↓reduceIte, hsign, hdigits, hnonempty, digitsValue_toDigits,
      Bool.false_eq_true, decide_eq_true_eq, hvalue]

theorem head?_writeExponent (e : Option Int) : ∀ c ∈ (writeExponent e).head?, c = 'e' := by
  cases e <;> simp [writeExponent]

theorem fraction?_append {ds rest : List Char} (hds : ∀ c ∈ ds, c.isDigit)
    (hrest : ∀ c ∈ rest.head?, c = 'e')
    : fraction? (writeFraction ds ++ rest) = some (ds, rest) := by
  cases ds with
  | nil =>
    cases rest with
    | nil => rfl
    | cons c rest =>
      have hc := hrest c rfl
      subst hc
      rfl
  | cons d ds =>
    have hdigits : digits (d :: ds ++ rest) = (d :: ds, rest) := by
      apply digits_append hds
      intro c hc
      rw [hrest c hc]
      decide
    rw [List.cons_append] at hdigits
    simp [writeFraction, fraction?, hdigits]

theorem digits_writeUnsigned {n : Numeral} (h : n.IsStrict)
    : digits n.writeUnsigned = (n.whole, writeFraction n.fraction ++ writeExponent n.exponent) := by
  apply digits_append h.whole
  intro c hc
  unfold writeFraction at hc
  split at hc
  . rw [head?_writeExponent n.exponent c hc]
    decide
  . cases hc
    decide

theorem exists_writeUnsigned_eq_cons {n : Numeral} (h : n.IsStrict)
    : ∃ d rest, n.writeUnsigned = d :: rest ∧ d.isDigit := by
  have hpart := h.isWholePart
  have hdigits := h.whole
  unfold writeUnsigned
  cases hwhole : n.whole with
  | nil =>
    rw [hwhole] at hpart
    exact absurd hpart (by decide)
  | cons d ds =>
    rw [hwhole] at hdigits
    exact ⟨d, _, rfl, hdigits d List.mem_cons_self⟩

theorem write_ne_nil {n : Numeral} (h : n.IsStrict) : n.write ≠ [] := by
  have ⟨d, rest, hrest, _⟩ := exists_writeUnsigned_eq_cons h
  unfold write
  split
  . exact List.cons_ne_nil _ _
  . rw [hrest]
    exact List.cons_ne_nil _ _

theorem strict?_write {n : Numeral} (h : n.IsStrict) : strict? n.write = some (n, []) := by
  have hguard : (guard (isWholePart n.whole = true) : Option Unit) = some () :=
    if_pos h.isWholePart
  have hfraction := fraction?_append h.fraction (head?_writeExponent n.exponent)
  have hexponent := exponent?_writeExponent n.exponent
  unfold strict?
  split
  next negative cs hsign =>
    have hcs : negative = n.negative ∧ cs = n.writeUnsigned := by
      unfold write at hsign
      cases hnegative : n.negative with
      | true =>
        rw [hnegative, if_pos rfl] at hsign
        cases hsign
        exact ⟨rfl, rfl⟩
      | false =>
        rw [hnegative, if_neg Bool.false_ne_true] at hsign
        split at hsign
        . next rest heq =>
          have ⟨d, _, hcons, hd⟩ := exists_writeUnsigned_eq_cons h
          rw [hcons] at heq
          cases heq
          exact absurd hd (by decide)
        . cases hsign
          exact ⟨rfl, rfl⟩
    rw [hcs.1, hcs.2, digits_writeUnsigned h]
    dsimp only
    rw [hguard]
    simp [hfraction, hexponent]

theorem isNumeralChar_of_isDigit {c : Char} (h : c.isDigit) : isNumeralChar c := by
  simp [isNumeralChar, h]

theorem isNumeralChar_of_mem_write {n : Numeral} (h : n.IsStrict)
    : ∀ c ∈ n.write, isNumeralChar c := by
  have hwhole : ∀ c ∈ n.whole, isNumeralChar c := by
    intro c hc
    exact isNumeralChar_of_isDigit (h.whole c hc)
  have hfraction : ∀ c ∈ writeFraction n.fraction, isNumeralChar c := by
    intro c hc
    unfold writeFraction at hc
    split at hc
    . exact absurd hc List.not_mem_nil
    . cases hc with
      | head => decide
      | tail _ hc => exact isNumeralChar_of_isDigit (h.fraction c hc)
  have hexponent : ∀ c ∈ writeExponent n.exponent, isNumeralChar c := by
    intro c hc
    unfold writeExponent at hc
    split at hc
    . exact absurd hc List.not_mem_nil
    . simp only [List.mem_cons] at hc
      rcases hc with rfl | rfl | hc
      . decide
      . split <;> decide
      . exact isNumeralChar_of_isDigit (isDigit_of_mem_toDigits c hc)
  intro c hc
  have hcases : c = '-' ∨ c ∈ n.whole ∨ c ∈ writeFraction n.fraction
      ∨ c ∈ writeExponent n.exponent := by
    unfold write writeUnsigned at hc
    split at hc
    . simpa using hc
    . right
      simpa using hc
  rcases hcases with rfl | hc | hc | hc
  . decide
  . exact hwhole c hc
  . exact hfraction c hc
  . exact hexponent c hc

theorem scan?_append {n : Numeral} (h : n.IsStrict) {rest : List Char}
    (hrest : ∀ c ∈ rest.head?, isNumeralChar c = false)
    : scan? (n.write ++ rest) = some (n, n.write.length) := by
  have ⟨hrun, _⟩ := span_append (isNumeralChar_of_mem_write h) hrest
  simp [scan?, hrun, strict?_write h]

end Numeral

end FormLogic
