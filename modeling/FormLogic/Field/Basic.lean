import FormLogic.Json.Basic
import FormLogic.Logic.Token
import FormLogic.Operator

/-!
This module contains the fields of a form with the rules that say when a field is shown and when its
content is accepted.
-/

namespace FormLogic

/--
A comparison of a value of the context with an expected one. The expected value can be undefined,
which differs from `null`.
-/
structure Condition where
  id : String
  path : String
  operator : Operator
  value : Option Json
deriving BEq

structure Leaf where
  id : String
  path : String
  operator : Operator
  value : Option Json
  message : String
deriving BEq

structure Composite where
  id : String
  logic : List LogicToken
  message : String
deriving BEq

inductive Validation where
  | leaf (rule : Leaf)
  | composite (rule : Composite)
deriving BEq

namespace Validation

def id : Validation → String
  | leaf rule => rule.id
  | composite rule => rule.id

def message : Validation → String
  | leaf rule => rule.message
  | composite rule => rule.message

def isComposite : Validation → Bool
  | leaf _ => false
  | composite _ => true

def leaf? : Validation → Option Leaf
  | leaf rule => some rule
  | composite _ => none

def composite? : Validation → Option Composite
  | leaf _ => none
  | composite rule => some rule

end Validation

/--
A field of a form. Without visibility logic it is always shown.
-/
structure Field where
  name : String
  label : String
  kind : String
  conditions : List Condition
  visibility : List LogicToken
  validations : Option (List Validation)
deriving BEq

namespace Field

def plain (name label kind : String) : Field := ⟨name, label, kind, [], [], none⟩

def addCondition (f : Field) (c : Condition) : Field := { f with conditions := f.conditions ++ [c] }

def setVisibility (f : Field) (logic : List LogicToken) : Field := { f with visibility := logic }

def addValidation (f : Field) (v : Validation) : Field :=
  { f with validations := some (f.validations.getD [] ++ [v]) }

def rules (f : Field) : List Validation := f.validations.getD []

def leaves (f : Field) : List Leaf := f.rules.filterMap (·.leaf?)

def composites (f : Field) : List Composite := f.rules.filterMap (·.composite?)

end Field

end FormLogic
