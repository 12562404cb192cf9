/-!
This module contains texts as sequences of UTF-16 code units. A character above U+FFFF takes two
units, the halves of a surrogate pair; the order by units differs from the order by characters
between these and the characters from U+E000 to U+FFFF.
-/

namespace FormLogic.Text

def unitsOf (c : Char) : List Nat :=
  if c.toNat < 0x10000 then
    [c.toNat]
  else
    [0xD800 + (c.toNat - 0x10000) / 0x400, 0xDC00 + (c.toNat - 0x10000) % 0x400]

def units16 (cs : List Char) : List Nat := cs.flatMap unitsOf

def isHalf (unit : Nat) : Bool := 0xD800 ≤ unit && unit < 0xE000

def charAtUnit? (cs : List Char) (offset : Nat) : Option Char :=
  match (units16 cs)[offset]? with
  | some unit => if isHalf unit then none else some (Char.ofNat unit)
  | none => none

def compareUnits (a b : List Char) : Ordering := compare (units16 a) (units16 b)

end FormLogic.Text
