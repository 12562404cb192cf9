import FormLogic.Coercion
import FormLogic.Operator

/-!
This module contains what the operators mean. Both sides may be undefined, which is neither a value
nor an error, and every operator has an answer for all values.
-/

namespace FormLogic

namespace Json

mutual

/--
The same value without regard to how numbers are written. Values of different kinds are never equal.
-/
def equal : Json → Json → Bool
  | null, null => true
  | bool a, bool b => a == b
  | number a, number b => a.toScalar.compare? b.toScalar == some .eq
  | string a, string b => a == b
  | array as, array bs => equalItems as bs
  | object as, object bs => as.length == bs.length && includedMembers as bs
  | _, _ => false

def equalItems : List Json → List Json → Bool
  | [], [] => true
  | a :: as, b :: bs => a.equal b && equalItems as bs
  | _, _ => false

def includedMembers : List (String × Json) → List (String × Json) → Bool
  | [], _ => true
  | (k, a) :: as, bs =>
    match find? bs k with
    | some b => a.equal b && includedMembers as bs
    | none => false

end

end Json

inductive Comparand where
  | text (cs : List Char)
  | scalar (x : Scalar)

namespace Comparand

/--
Arrays and objects take part as text, and what is undefined is no number.
-/
def ofValue : Option Json → Comparand
  | none => scalar .notANumber
  | some .null => scalar (.ofInt 0)
  | some (.bool b) => scalar (.ofInt (if b then 1 else 0))
  | some (.number n) => scalar n.toScalar
  | some v => text v.plainText

def toScalar : Comparand → Scalar
  | text cs => .ofText cs
  | scalar x => x

/--
Two texts are ordered by their UTF-16 code units, and anything else as numbers.
-/
def compare? : Comparand → Comparand → Option Ordering
  | text a, text b => some (Text.compareUnits a b)
  | a, b => a.toScalar.compare? b.toScalar

end Comparand

namespace Operator

def areEqual : Option Json → Option Json → Bool
  | none, none => true
  | some a, some b => a.equal b
  | _, _ => false

def order? (actual expected : Option Json) : Option Ordering :=
  (Comparand.ofValue actual).compare? (Comparand.ofValue expected)

def occurs (part : List Char) : List Char → Bool
  | [] => part.isEmpty
  | c :: cs => part.isPrefixOf (c :: cs) || occurs part cs

/--
Whether an array has an item equal to what is expected, or a text has the expected text in it. Other
values contain nothing and lack nothing.
-/
def contains? (actual expected : Option Json) : Option Bool :=
  match actual with
  | some (.array items) =>
    some <| match expected with
      | some v => items.any (·.equal v)
      | none => false
  | some (.string s) =>
    let part := match expected with
      | some v => v.plainText
      | none => "undefined".toList
    some (occurs part s.toList)
  | _ => none

def relates (op : Operator) (actual expected : Option Json) : Bool :=
  match op with
  | equals => areEqual actual expected
  | notEquals => !areEqual actual expected
  | greaterThan => order? actual expected == some .gt
  | lessThan => order? actual expected == some .lt
  | greaterOrEqual => order? actual expected == some .gt || order? actual expected == some .eq
  | lessOrEqual => order? actual expected == some .lt || order? actual expected == some .eq
  | includes => contains? actual expected == some true
  | notIncludes => contains? actual expected == some false

end Operator

end FormLogic
