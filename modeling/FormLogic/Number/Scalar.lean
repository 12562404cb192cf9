import FormLogic.Number.Binary64

/-!
This module contains the outcomes of taking something for a number: a finite number, an infinity or
no number at all, with their order.
-/

namespace FormLogic

inductive Scalar where
  | notANumber
  | infinite (negative : Bool)
  | finite (value : Binary64)
deriving DecidableEq

namespace Scalar

/--
The nearest number to `num / den`, a tie going to the even significand. From half a unit below `2 ^
1024` on it is infinite.
-/
def ofRatio (negative : Bool) (num den : Nat) : Scalar :=
  let units := Binary64.roundUnits (num <<< 1074) den
  if h : units < Binary64.limit then
    finite ⟨negative, units, Binary64.representable_roundUnits h⟩
  else
    infinite negative

def ofInt (value : Int) : Scalar := ofRatio (value < 0) value.natAbs 1

/--
The place in the order: first the infinities against the finite numbers, then the value. What is no
number has no place.
-/
def rank? : Scalar → Option (Int × Int)
  | notANumber => none
  | infinite true => some (-1, 0)
  | finite value => some (0, value.signed)
  | infinite false => some (1, 0)

def compare? (a b : Scalar) : Option Ordering := do
  let x ← a.rank?
  let y ← b.rank?
  return (compare x.1 y.1).then (compare x.2 y.2)

end Scalar

end FormLogic
