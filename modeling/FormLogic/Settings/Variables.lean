import FormLogic.Settings.Setting

/-!
This module contains the settings that environment variables give. The names of such variables start
with `FORM_` in capitals or not, and two underscores separate the names in an address.
-/

namespace FormLogic.Variables

/--
The number that a text stands for. Unlike numerals of other texts it can be `inf` or `nan`.
-/
def real? (cs : List Char) : Option Scalar :=
  match Numeral.free? cs with
  | some numeral => some numeral.toDecimal.toScalar
  | none =>
    let (negative, word) := Numeral.sign cs
    let word := word.map Char.toLower
    if word = "inf".toList ∨ word = "infinity".toList then some (.infinite negative)
    else if word = "nan".toList then some .notANumber
    else none

def whole? (cs : List Char) : Option Int :=
  let (negative, ds) := Numeral.sign cs
  let value : Int := if negative then -(Numeral.digitsValue ds : Int) else Numeral.digitsValue ds
  if !ds.isEmpty && ds.all Char.isDigit && -0x8000000000000000 ≤ value
      && value < 0x8000000000000000 then
    some value
  else
    none

def setting (value : String) : Setting :=
  let word := value.toLower
  if word = "true" then .truth true
  else if word = "false" then .truth false
  else match whole? value.toList with
    | some n => .whole n
    | none =>
      match real? value.toList with
      | some x => .real x
      | none => .text value

def dots : List Char → List Char
  | '_' :: '_' :: cs => '.' :: dots cs
  | c :: cs => c :: dots cs
  | [] => []

def key? (name : String) : Option String :=
  let cs := name.toList.map Char.toLower
  let start := "form_".toList
  if start.isPrefixOf cs then some (String.ofList (dots (cs.drop start.length))) else none

def read (bindings : List (String × String)) : List (String × Setting) :=
  bindings.filterMap fun (name, value) => (key? name).map (·, setting value)

end FormLogic.Variables
