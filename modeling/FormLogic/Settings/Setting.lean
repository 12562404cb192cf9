import FormLogic.Json.Basic

/-!
This module contains the values that settings are given, and how the settings of one source are laid
over those of the sources before it.
-/

namespace FormLogic

inductive Setting where
  | blank
  | text (s : String)
  | truth (b : Bool)
  | whole (value : Int)
  | real (x : Scalar)
  | list (items : List Setting)
  | table (members : List (String × Setting))

namespace Setting

def layout : Layout := ⟨.up, none, []⟩

def asText? : Setting → Option String
  | text s => some s
  | truth b => some (if b then "true" else "false")
  | whole value => some (String.ofList (Numeral.writeInt value))
  | real .notANumber => some "NaN"
  | real (.infinite negative) => some (if negative then "-inf" else "inf")
  | real (.finite x) => some (String.ofList (layout.write x))
  | blank | list _ | table _ => none

/--
The truth value of a single value: a number other than zero is true, and some words stand for
either.
-/
def asTruth? : Setting → Option Bool
  | truth b => some b
  | whole value => some (value != 0)
  | real (.finite x) => some (x.units != 0)
  | real _ => some true
  | text s =>
    let word := s.toLower
    if word ∈ ["1", "true", "on", "yes"] then some true
    else if word ∈ ["0", "false", "off", "no"] then some false
    else none
  | blank | list _ | table _ => none

mutual

/--
Whole numbers beyond the machine words with a sign are taken for the nearest other numbers.
-/
def ofJson : Json → Setting
  | .null => blank
  | .bool b => truth b
  | .number (.whole value _) =>
    if value < 0x8000000000000000 then whole value else real (.ofInt value)
  | .number (.real x) => real (.finite x)
  | .string s => text s
  | .array items => list (ofItems items)
  | .object ms => table (ofMembers ms)

def ofItems : List Json → List Setting
  | [] => []
  | v :: vs => ofJson v :: ofItems vs

def ofMembers : List (String × Json) → List (String × Setting)
  | [] => []
  | (k, v) :: ms => (k, ofJson v) :: ofMembers ms

end

def members : Setting → List (String × Setting)
  | table ms => ms
  | _ => []

def items : Setting → List Setting
  | list vs => vs
  | _ => []

/--
Change the member with the given key. One that is missing is blank before and comes last.
-/
def alter (key : String) (change : Setting → Setting) :
    List (String × Setting) → List (String × Setting)
  | [] => [(key, change blank)]
  | (k, v) :: ms => if k = key then (k, change v) :: ms else (k, v) :: alter key change ms

/--
Change the item at an index, where negative ones count from the end. A list that is too short gets
blank items at the end or, for a negative index, at the front.
-/
def alterAt (index : Int) (change : Setting → Setting) (vs : List Setting) : List Setting :=
  match index with
  | .ofNat n => (vs ++ List.replicate (n + 1 - vs.length) blank).modify n change
  | .negSucc n =>
    (List.replicate (n + 1 - vs.length) blank ++ vs).modify (vs.length - (n + 1)) change

mutual

/--
Lay a setting over what was set before. A table is laid over a table member by member.
-/
def laidOver (new old : Setting) : Setting :=
  match new with
  | table ms => table (membersOver ms old.members)
  | other => other

def membersOver (new old : List (String × Setting)) : List (String × Setting) :=
  match new with
  | [] => old
  | (k, v) :: ms => membersOver ms (alter k v.laidOver old)

end

inductive Step where
  | key (name : String)
  | index (position : Int)

/--
Lay a setting over what was set before at the end of a way. What is no table or no list on the way
becomes one.
-/
def place (value : Setting) : List Step → Setting → Setting
  | [], old => value.laidOver old
  | .key name :: steps, old => table (alter name (place value steps) old.members)
  | .index position :: steps, old => list (alterAt position (place value steps) old.items)

end Setting

end FormLogic
