import FormLogic.Json.Document
import FormLogic.Text.Printable

/-!
This module contains what can be wrong with a JSON text that is read as something, and how that is
put into words.
-/

namespace FormLogic

inductive Found where
  | null
  | bool (b : Bool)
  | number (n : Number)
  | text (s : String)
  | sequence
  | map

inductive Wanted where
  | text
  | sequence
  | unit
  | record (name : String)

inductive Lack where
  | logicOrField
  | operator

inductive Mismatch where
  | wrongKind (found : Found) (wanted : Wanted)
  | missing (key : String)
  | repeated (key : String)
  | tooShort (length : Nat) (record : String) (members : Nat)
  | unknownOperator (name : String)
  | incompleteValidation (id : String) (lack : Lack)

inductive Fault where
  | notJson
  | mismatch (m : Mismatch)

namespace Found

def describe : Found → String
  | null => "null"
  | bool b => "boolean `" ++ (if b then "true" else "false") ++ "`"
  | number (.whole value _) => "integer `" ++ String.ofList (Numeral.writeInt value) ++ "`"
  | number (.real x) => "floating point `" ++ String.ofList (Number.layout.write x) ++ "`"
  | text s => "string \"" ++ String.ofList (s.toList.flatMap Text.reveal) ++ "\""
  | sequence => "sequence"
  | map => "map"

end Found

namespace Wanted

def describe : Wanted → String
  | text => "a string"
  | sequence => "a sequence"
  | unit => "unit"
  | record name => "struct " ++ name

end Wanted

namespace Lack

def describe : Lack → String
  | logicOrField => "缺少 logic 或 field"
  | operator => "缺少 operator"

end Lack

namespace Mismatch

def message : Mismatch → String
  | wrongKind found wanted => "invalid type: " ++ found.describe ++ ", expected " ++ wanted.describe
  | missing key => "missing field `" ++ key ++ "`"
  | repeated key => "duplicate field `" ++ key ++ "`"
  | tooShort length record members =>
    "invalid length " ++ length.repr ++ ", expected struct " ++ record ++ " with "
      ++ members.repr ++ " elements"
  | unknownOperator name =>
    "unknown variant `" ++ name ++ "`, expected one of `equals`, `not_equals`, `greater_than`, "
      ++ "`less_than`, `greater_or_equal`, `less_or_equal`, `includes`, `not_includes`"
  | incompleteValidation id lack => "校验规则 '" ++ id ++ "' 结构无效: " ++ lack.describe

end Mismatch

end FormLogic
