import FormLogic.Number.Decimal

/-!
This module contains the ways in which the shortest decimal of a number is written out.
-/

namespace FormLogic

structure Layout where
  tie : Decimal.Tie
  /-- Numbers whose first digit stands at a power of ten from the first of these on and below the
  second are written without an exponent. If they are absent all numbers are. -/
  positional : Option (Int × Int)
  wholeEnd : List Char

namespace Layout

def isPositional (l : Layout) (place : Int) : Bool :=
  match l.positional with
  | none => true
  | some (low, high) => low ≤ place && place < high

/--
The digits with the point behind the first `point` of them, where a negative number puts zeros
between the point and the digits.
-/
def placePoint (l : Layout) (ds : List Char) (point : Int) : List Char :=
  if ds.length ≤ point then
    ds ++ List.replicate (point.toNat - ds.length) '0' ++ l.wholeEnd
  else if 0 < point then
    ds.take point.toNat ++ '.' :: ds.drop point.toNat
  else
    '0' :: '.' :: (List.replicate (-point).toNat '0' ++ ds)

/--
The digits with a point behind the first and the power of ten of the first.
-/
def withExponent (ds : List Char) (place : Int) : List Char :=
  let mantissa := match ds with
    | first :: second :: rest => first :: '.' :: second :: rest
    | ds => ds
  mantissa ++ 'e' :: (if place < 0 then '-' else '+') :: Nat.toDigits 10 place.natAbs

def write (l : Layout) (x : Binary64) : List Char :=
  let d := Decimal.shortest l.tie x
  let ds := Nat.toDigits 10 d.digits
  let place := ds.length + d.exponent - 1
  let text := if l.isPositional place then l.placePoint ds (place + 1) else withExponent ds place
  if x.negative then '-' :: text else text

end Layout

end FormLogic
