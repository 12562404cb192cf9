import FormLogic.Text.Quoted
import Mathlib.Data.Option.Basic

/-!
This module contains the proof that a text is found again between the quotes that it is written
into.
-/

namespace FormLogic.Text

theorem hexDigit?_hexChar {n : Nat} (h : n < 16) : hexDigit? (hexChar n) = some n := by
  revert n
  decide

theorem hex?_control {n : Nat} (h : n < 0x20)
    : hex? ['0', '0', hexChar (n / 16), hexChar (n % 16)] = some n := by
  have hzero : hexDigit? '0' = some 0 := by decide
  have hhigh : hexDigit? (hexChar (n / 16)) = some (n / 16) := hexDigit?_hexChar (by omega)
  have hlow : hexDigit? (hexChar (n % 16)) = some (n % 16) := hexDigit?_hexChar (by omega)
  unfold hex?
  simp [hzero, hhigh, hlow]
  omega

theorem ofUnit_control {c : Char} (h : c.toNat < 0x20) : Piece.ofUnit c.toNat = .char c := by
  have hhalf : isHalf c.toNat = false := by
    simp [isHalf]
    omega
  simp [Piece.ofUnit, hhalf]

theorem scan?_plain {c : Char} (hquote : c ≠ '"') (hbackslash : c ≠ '\\') (h : 0x20 ≤ c.toNat)
    (rest : List Char)
    : scan? (c :: rest)
        =
      (scan? rest).map fun (pieces, width) => (.char c :: pieces, width + 1) := by
  have hguard : (guard (0x20 ≤ c.toNat ∧ c ≠ '\\') : Option Unit) = some () :=
    if_pos ⟨h, hbackslash⟩
  rw [scan?]
  . rw [hguard]
    cases scan? rest <;> rfl
  . intro heq
    exact hquote heq
  . intro a b c d rest' heq _
    exact hbackslash heq
  . intro e rest' heq _
    exact hbackslash heq

theorem scan?_short {e c : Char} (he : e ≠ 'u') (h : unescape? e = some c) (rest : List Char)
    : scan? ('\\' :: e :: rest)
        =
      (scan? rest).map fun (pieces, width) => (.char c :: pieces, width + 2) := by
  rw [scan?]
  . rw [h]
    cases scan? rest <;> rfl
  . intro a b c d rest' heq
    exact absurd heq he

theorem scan?_unicode {c : Char} (h : c.toNat < 0x20) (rest : List Char)
    : scan? ('\\' :: 'u' :: '0' :: '0' :: hexChar (c.toNat / 16) :: hexChar (c.toNat % 16) :: rest)
        =
      (scan? rest).map fun (pieces, width) => (.char c :: pieces, width + 6) := by
  rw [scan?, hex?_control h]
  simp only [bind, Option.bind, ofUnit_control h]
  cases scan? rest <;> rfl

theorem scan?_escape (c : Char) (rest : List Char)
    : scan? (escape c ++ rest)
        =
      (scan? rest).map fun (pieces, width) => (.char c :: pieces, width + (escape c).length) := by
  unfold escape
  split
  . exact scan?_short (by decide) rfl rest
  . exact scan?_short (by decide) rfl rest
  . exact scan?_short (by decide) rfl rest
  . exact scan?_short (by decide) rfl rest
  . exact scan?_short (by decide) rfl rest
  . exact scan?_short (by decide) rfl rest
  . exact scan?_short (by decide) rfl rest
  . split
    . next h => exact scan?_unicode h rest
    . next hquote hbackslash _ _ _ _ _ h =>
      exact scan?_plain hquote hbackslash (by omega) rest

theorem scan?_flatMap_escape (text rest : List Char)
    : scan? (text.flatMap escape ++ '"' :: rest)
        =
      some (text.map .char, (text.flatMap escape).length + 1) := by
  induction text with
  | nil => simp [scan?]
  | cons c text ih =>
    rw [List.flatMap_cons, List.append_assoc, scan?_escape, ih]
    simp
    omega

theorem join?_map_char (text : List Char) : Piece.join? (text.map .char) = some text := by
  induction text with
  | nil => rfl
  | cons c text ih => simp [Piece.join?, ih]

end FormLogic.Text
