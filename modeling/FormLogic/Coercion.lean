import FormLogic.Json.Basic
import FormLogic.Text.Blank
import FormLogic.Text.Quoted

/-!
This module contains the text and the number that any value is taken for when it is compared with a
value of another kind.
-/

namespace FormLogic

namespace Number

def plainLayout : Layout := ⟨.up, none, []⟩

/--
The plain text of a number. Whole numbers below `10 ^ 21` are written with all their digits, and
zero has no sign.
-/
def plainText : Number → List Char
  | whole value _ => Numeral.writeInt value
  | real x =>
    if x.units = 0 then
      ['0']
    else if x.isWhole ∧ x.wholePart < Nat.pow 10 21 then
      Numeral.writeInt (if x.negative then -(x.wholePart : Int) else x.wholePart)
    else
      plainLayout.write x

end Number

namespace Json

mutual

/--
The plain text of a value. The items of an array are separated by commas, where `null` is left
blank, and all objects look alike.
-/
def plainText : Json → List Char
  | null => ['n', 'u', 'l', 'l']
  | bool true => ['t', 'r', 'u', 'e']
  | bool false => ['f', 'a', 'l', 's', 'e']
  | number n => n.plainText
  | string s => s.toList
  | array items => plainItems items
  | object _ => "[object Object]".toList

def plainItems : List Json → List Char
  | [] => []
  | [v] => if v.isNull then [] else v.plainText
  | v :: w :: vs => (if v.isNull then [] else v.plainText) ++ ',' :: plainItems (w :: vs)

end

@[simp]
theorem plainText_number (n : Number) : (number n).plainText = n.plainText := rfl

@[simp]
theorem plainText_string (s : String) : (string s).plainText = s.toList := rfl

@[simp]
theorem plainText_array (items : List Json) : (array items).plainText = plainItems items := rfl

@[simp]
theorem plainText_object (members : List (String × Json))
    : (object members).plainText = "[object Object]".toList := rfl

@[simp]
theorem plainItems_singleton (v : Json)
    : plainItems [v] = if v.isNull then [] else v.plainText := rfl

@[simp]
theorem plainItems_cons_cons (v w : Json) (vs : List Json)
    : plainItems (v :: w :: vs)
        =
      (if v.isNull then [] else v.plainText) ++ ',' :: plainItems (w :: vs) := rfl

end Json

namespace Scalar

def radixValue? (base : Nat) (cs : List Char) : Option Nat := do
  let ds := match cs with
    | '+' :: ds => ds
    | ds => ds
  guard (!ds.isEmpty)
  let value ← ds.foldlM (fun value c => do
    let d ← Text.hexDigit? c
    guard (d < base)
    return base * value + d) 0
  guard (value < 0x10000000000000000)
  return value

def announced? : List Char → Option (Nat × List Char)
  | '0' :: c :: cs =>
    if c = 'x' ∨ c = 'X' then some (16, cs)
    else if c = 'o' ∨ c = 'O' then some (8, cs)
    else if c = 'b' ∨ c = 'B' then some (2, cs)
    else none
  | _ => none

/--
The number that a text stands for, without regard to white space around it. Blank text is zero.
-/
def ofText (text : List Char) : Scalar :=
  let cs := Text.trim text
  if cs.isEmpty then .finite (.zero false)
  else if cs = "Infinity".toList ∨ cs = "+Infinity".toList then infinite false
  else if cs = "-Infinity".toList then infinite true
  else match announced? cs with
    | some (base, ds) =>
      match radixValue? base ds with
      | some value => .ofInt value
      | none => notANumber
    | none =>
      match Numeral.free? cs with
      | some numeral => numeral.toDecimal.toScalar
      | none => notANumber

end Scalar

end FormLogic
