import FormLogic.Field.Basic
import FormLogic.Json.Document

/-!
This module contains the JSON texts of fields and their rules. The members stand in a fixed order,
and absent ones are left out.
-/

namespace FormLogic

def Document.text (d : Document) : String := String.ofList d.write

namespace Operator

def toDocument (op : Operator) : Document := .ofText op.name

end Operator

namespace LogicToken

def toDocument (tokens : List LogicToken) : Document :=
  .array (tokens.map fun token => .ofText token.name) true

end LogicToken

namespace Condition

def toDocument (c : Condition) : Document :=
  .object
    (("id", .ofText c.id) :: ("field", .ofText c.path)
      :: ("operator", c.operator.toDocument)
      :: Document.member? "value" Json.toDocument c.value)
    true

end Condition

namespace Validation

def toDocument : Validation → Document
  | leaf rule =>
    .object
      (("id", .ofText rule.id) :: ("message", .ofText rule.message)
        :: ("field", .ofText rule.path) :: ("operator", rule.operator.toDocument)
        :: Document.member? "value" Json.toDocument rule.value)
      true
  | composite rule =>
    .object
      [("id", .ofText rule.id), ("message", .ofText rule.message),
        ("logic", LogicToken.toDocument rule.logic)]
      true

end Validation

namespace Field

def toDocument (f : Field) : Document :=
  .object
    (("name", .ofText f.name) :: ("label", .ofText f.label)
      :: ("type", .ofText f.kind)
      :: ("conditions", .array (f.conditions.map (·.toDocument)) true)
      :: ("visibilityLogic", LogicToken.toDocument f.visibility)
      :: Document.member? "validations" (fun rules => .array (rules.map (·.toDocument)) true)
        f.validations)
    true

def text (f : Field) : String := f.toDocument.text

end Field

end FormLogic
