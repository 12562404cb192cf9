import FormLogic.Number.Decimal

/-!
This module contains numerals, that is numbers as they are written, and two grammars for them: the
strict one of JSON, which finds a numeral at the front of a text, and the free one, which takes a
whole text.
-/

namespace FormLogic

/--
A number as written. A numeral without a point has no fraction digits.
-/
structure Numeral where
  negative : Bool
  whole : List Char
  fraction : List Char
  exponent : Option Int

namespace Numeral

def digitsValue (ds : List Char) : Nat := Nat.ofDigitChars 10 ds 0

def toDecimal (n : Numeral) : Decimal :=
  ⟨n.negative, digitsValue (n.whole ++ n.fraction), n.exponent.getD 0 - n.fraction.length⟩

def digits (cs : List Char) : List Char × List Char :=
  (cs.takeWhile Char.isDigit, cs.dropWhile Char.isDigit)

def sign : List Char → Bool × List Char
  | '-' :: cs => (true, cs)
  | '+' :: cs => (false, cs)
  | cs => (false, cs)

def exponent? : List Char → Option (Option Int × List Char)
  | [] => some (none, [])
  | c :: cs =>
    if c = 'e' ∨ c = 'E' then
      let (negative, cs) := sign cs
      let (ds, rest) := digits cs
      if ds.isEmpty then
        none
      else
        some (some (if negative then -(digitsValue ds : Int) else digitsValue ds), rest)
    else
      some (none, c :: cs)

/--
The fraction at the front, if there is a point, and what follows it. A point needs a digit.
-/
def fraction? : List Char → Option (List Char × List Char)
  | '.' :: cs =>
    let (ds, rest) := digits cs
    if ds.isEmpty then none else some (ds, rest)
  | cs => some ([], cs)

def isWholePart : List Char → Bool
  | [] => false
  | ['0'] => true
  | c :: _ => c != '0'

def strict? (cs : List Char) : Option (Numeral × List Char) := do
  let (negative, cs) := match cs with
    | '-' :: cs => (true, cs)
    | cs => (false, cs)
  let (whole, cs) := digits cs
  guard (isWholePart whole)
  let (fraction, cs) ← fraction? cs
  let (exponent, cs) ← exponent? cs
  return (⟨negative, whole, fraction, exponent⟩, cs)

/--
The text as a numeral in which either sign is allowed, zeros may lead, and digits are needed only on
one side of the point.
-/
def free? (cs : List Char) : Option Numeral := do
  let (negative, cs) := sign cs
  let (whole, cs) := digits cs
  let (fraction, cs) := match cs with
    | '.' :: cs => digits cs
    | cs => ([], cs)
  guard (!(whole.isEmpty && fraction.isEmpty))
  let (exponent, cs) ← exponent? cs
  guard cs.isEmpty
  return ⟨negative, whole, fraction, exponent⟩

def isNumeralChar (c : Char) : Bool :=
  c.isDigit || c == '+' || c == '-' || c == '.' || c == 'e' || c == 'E'

def scan? (cs : List Char) : Option (Numeral × Nat) := do
  let run := cs.takeWhile isNumeralChar
  let (numeral, rest) ← strict? run
  return (numeral, run.length - rest.length)

def writeInt (value : Int) : List Char :=
  if value < 0 then '-' :: Nat.toDigits 10 value.natAbs else Nat.toDigits 10 value.natAbs

end Numeral

end FormLogic
