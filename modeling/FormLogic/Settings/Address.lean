import FormLogic.Settings.Setting

/-!
This module contains the addresses of settings. An address is a name, and behind it names after dots
and numbers in brackets.
-/

namespace FormLogic.Setting

namespace Step

def isNameChar (c : Char) : Bool := c.isAlphanum || c == '_' || c == '-'

def name? (cs : List Char) : Option (Step × List Char) :=
  let name := cs.takeWhile isNameChar
  if name.isEmpty then none else some (key (String.ofList name), cs.dropWhile isNameChar)

/--
The index between brackets: digits with an optional minus sign that fit a machine word with a sign.
Blanks around it do not count.
-/
def index? (cs : List Char) : Option Step := do
  let isBlank (c : Char) : Bool := c == ' ' || c == '\t'
  let cs := ((cs.dropWhile isBlank).reverse.dropWhile isBlank).reverse
  let (negative, ds) := match cs with
    | '-' :: ds => (true, ds)
    | ds => (false, ds)
  guard (!ds.isEmpty && ds.all Char.isDigit)
  let value : Int := if negative then -(Numeral.digitsValue ds : Int) else Numeral.digitsValue ds
  guard (-0x8000000000000000 ≤ value ∧ value < 0x8000000000000000)
  return index value

/--
The steps behind the first name. There are at most as many as `fuel`.
-/
def more? (fuel : Nat) (cs : List Char) : Option (List Step) :=
  match fuel, cs with
  | _, [] => some []
  | fuel + 1, '.' :: cs => do
    let (step, rest) ← name? cs
    (step :: ·) <$> more? fuel rest
  | fuel + 1, '[' :: cs => do
    let step ← index? (cs.takeWhile (· != ']'))
    guard (']' ∈ cs)
    (step :: ·) <$> more? fuel ((cs.dropWhile (· != ']')).drop 1)
  | _, _ => none

end Step

/--
The way to which an address leads. A text that is no address is one name.
-/
def address (text : String) : List Step :=
  let steps := do
    let (step, rest) ← Step.name? text.toList
    (step :: ·) <$> Step.more? rest.length rest
  steps.getD [.key text]

end FormLogic.Setting
