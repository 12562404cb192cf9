/-!
This module contains the operators that relate a value of the context to an expected value.
-/

namespace FormLogic

inductive Operator where
  | equals
  | notEquals
  | greaterThan
  | lessThan
  | greaterOrEqual
  | lessOrEqual
  | includes
  | notIncludes
deriving DecidableEq

namespace Operator

def all : List Operator :=
  [equals, notEquals, greaterThan, lessThan, greaterOrEqual, lessOrEqual, includes, notIncludes]

def name : Operator → String
  | equals => "equals"
  | notEquals => "not_equals"
  | greaterThan => "greater_than"
  | lessThan => "less_than"
  | greaterOrEqual => "greater_or_equal"
  | lessOrEqual => "less_or_equal"
  | includes => "includes"
  | notIncludes => "not_includes"

def ofName? : String → Option Operator
  | "equals" => some equals
  | "not_equals" => some notEquals
  | "greater_than" => some greaterThan
  | "less_than" => some lessThan
  | "greater_or_equal" => some greaterOrEqual
  | "less_or_equal" => some lessOrEqual
  | "includes" => some includes
  | "not_includes" => some notIncludes
  | _ => none

@[simp]
theorem ofName?_name (op : Operator) : ofName? op.name = some op := by cases op <;> rfl

end Operator

end FormLogic
