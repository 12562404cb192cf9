import FormLogic.Number.Numeral
import FormLogic.Number.Layout

/-!
This module contains JSON values. Whole numbers and other numbers are told apart, and the members of
an object are in the order of their keys.
-/

namespace FormLogic

/--
A number of a JSON value: a whole number that fits a machine word with or without a sign, or a
binary64 number.
-/
inductive Number where
  | whole (value : Int) (fits : -0x8000000000000000 ≤ value ∧ value < 0x10000000000000000)
  | real (value : Binary64)
deriving DecidableEq

namespace Number

/--
The number that a numeral stands for: a whole number if it is written as one, is no negative zero
and fits, and else the nearest binary64 number, so that shortest digits are read back. There is none
beyond the range of binary64.
-/
def ofNumeral? (n : Numeral) : Option Number :=
  let digits := Numeral.digitsValue n.whole
  let value : Int := if n.negative then -digits else digits
  if h : (n.fraction = [] ∧ n.exponent = none ∧ ¬(n.negative ∧ digits = 0))
      ∧ (-0x8000000000000000 ≤ value ∧ value < 0x10000000000000000) then
    some (whole value h.2)
  else
    match n.toDecimal.toScalar with
    | .finite x => some (real x)
    | _ => none

def count (n : Nat) : Number := whole (min n 0xFFFFFFFFFFFFFFFF) (by omega)

def toScalar : Number → Scalar
  | whole value _ => .ofInt value
  | real x => .finite x

/--
The same kind of number with the same value. The two zeros of binary64 are the same.
-/
def same : Number → Number → Bool
  | whole a _, whole b _ => a == b
  | real x, real y => x.signed == y.signed
  | _, _ => false

/--
Numbers of JSON have an exponent below `1e-5` and from `1e16` on, and a whole one has `.0` at its
end.
-/
def layout : Layout := ⟨.even, some (-5, 16), ['.', '0']⟩

def write : Number → List Char
  | whole value _ => Numeral.writeInt value
  | real x => layout.write x

end Number

inductive Json where
  | null
  | bool (b : Bool)
  | number (n : Number)
  | string (s : String)
  | array (items : List Json)
  | object (members : List (String × Json))

namespace Json

def isNull : Json → Bool
  | null => true
  | _ => false

def find? (members : List (String × Json)) (key : String) : Option Json :=
  match members with
  | [] => none
  | (k, v) :: rest => if k = key then some v else find? rest key

def insert (members : List (String × Json)) (key : String) (value : Json) : List (String × Json) :=
  match members with
  | [] => [(key, value)]
  | (k, v) :: rest =>
    if key < k then (key, value) :: (k, v) :: rest
    else if key = k then (key, value) :: rest
    else (k, v) :: insert rest key value

/--
The members in the order of their keys, where a later member replaces an earlier one of the same
key.
-/
def ofMembers (members : List (String × Json)) : List (String × Json) :=
  members.foldl (fun sorted (key, value) => insert sorted key value) []

mutual

def same : Json → Json → Bool
  | null, null => true
  | bool a, bool b => a == b
  | number a, number b => a.same b
  | string a, string b => a == b
  | array as, array bs => sameItems as bs
  | object as, object bs => sameMembers as bs
  | _, _ => false

def sameItems : List Json → List Json → Bool
  | [], [] => true
  | a :: as, b :: bs => a.same b && sameItems as bs
  | _, _ => false

def sameMembers : List (String × Json) → List (String × Json) → Bool
  | [], [] => true
  | (k, a) :: as, (l, b) :: bs => k == l && a.same b && sameMembers as bs
  | _, _ => false

end

instance : BEq Json := ⟨same⟩

end Json

end FormLogic
