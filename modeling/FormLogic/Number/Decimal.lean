import FormLogic.Number.Scalar

/-!
This module contains decimal numbers, the way to the nearest binary64 number and the way back to the
shortest decimal.

A decimal is read as the nearest number, so that every number is read back from its shortest digits.
That a printed field is read as itself rests on this. A reader that scales the rounded digits by a
rounded power of ten rounds as often as three times and can end beside the nearest number: it has
`31.24527019143944` for `31.245270191439438`. Where the digits are below `2 ^ 53` and the power is
no greater than `10 ^ 22`, both are exact and there is no difference.
-/

namespace FormLogic

structure Decimal where
  negative : Bool
  digits : Nat
  exponent : Int
deriving DecidableEq

namespace Decimal

/--
The nearest number, a tie going to the even significand. Exponents far outside the range of the
format are settled without computing the power of ten.
-/
def toScalar (d : Decimal) : Scalar :=
  if d.digits = 0 ∨ d.exponent < -(400 + (d.digits.log2 : Int)) then
    .finite (.zero d.negative)
  else if 400 ≤ d.exponent then
    .infinite d.negative
  else
    match d.exponent with
    | .ofNat e => .ofRatio d.negative (d.digits * Nat.pow 10 e) 1
    | .negSucc e => .ofRatio d.negative d.digits (Nat.pow 10 (e + 1))

inductive Tie where
  | even
  | up

/--
The neighbour of `x` on the grid of multiples of `10 ^ exponent` that reads back as `x`. Of two such
neighbours it is the nearer one.
-/
def onGrid? (tie : Tie) (x : Binary64) (exponent : Int) : Option Decimal :=
  let num := x.units * Nat.pow 10 (-exponent).toNat
  let den := Nat.pow 10 exponent.toNat <<< 1074
  let low : Decimal := ⟨x.negative, num / den, exponent⟩
  let high : Decimal := ⟨x.negative, num / den + 1, exponent⟩
  let rest := num % den
  match low.toScalar == .finite x, high.toScalar == .finite x with
  | false, false => none
  | true, false => some low
  | false, true => some high
  | true, true =>
    if 2 * rest < den then some low
    else if den < 2 * rest then some high
    else match tie with
      | .even => some (if low.digits % 2 = 0 then low else high)
      | .up => some high

/--
The decimal with the fewest digits that reads back as `x`, and of those the nearest: a neighbour of
`x` on the coarsest grid that has one.
-/
def shortest (tie : Tie) (x : Binary64) : Decimal :=
  if x.units = 0 then ⟨x.negative, 0, 0⟩ else go 1383
where
  /-- The grids of `10 ^ (n - 1074)` and finer. On the finest of them `x` itself lies. -/
  go : Nat → Decimal
    | 0 => ⟨x.negative, x.units * Nat.pow 5 1074, -1074⟩
    | n + 1 => (onGrid? tie x ((n + 1 : Nat) - 1074 : Int)).getD (go n)

theorem toScalar_of_onGrid? {tie : Tie} {x : Binary64} {exponent : Int} {d : Decimal}
    (h : onGrid? tie x exponent = some d) : d.toScalar = .finite x := by
  simp only [onGrid?] at h
  split at h
  . cases h
  . next hlow _ =>
    cases h
    exact eq_of_beq hlow
  . next _ hhigh =>
    cases h
    exact eq_of_beq hhigh
  . next hlow hhigh =>
    have hl := eq_of_beq hlow
    have hh := eq_of_beq hhigh
    split at h
    . cases h
      exact hl
    . split at h
      . cases h
        exact hh
      . split at h
        . cases h
          split
          . exact hl
          . exact hh
        . cases h
          exact hh

end Decimal

end FormLogic
