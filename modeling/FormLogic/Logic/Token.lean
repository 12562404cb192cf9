/-!
This module contains the tokens of logic expressions in postfix form.
-/

namespace FormLogic

inductive LogicToken where
  | operand (id : String)
  | and
  | or
  | not
deriving DecidableEq

namespace LogicToken

def name : LogicToken → String
  | operand id => id
  | and => "AND"
  | or => "OR"
  | not => "NOT"

/--
The words of the operators are in capitals. Every other text is an operand.
-/
def ofName : String → LogicToken
  | "AND" => and
  | "OR" => or
  | "NOT" => not
  | id => operand id

@[simp]
theorem name_ofName (s : String) : (ofName s).name = s := by
  unfold ofName
  split <;> rfl

def isOperand : LogicToken → Bool
  | operand _ => true
  | _ => false

def arity : LogicToken → Nat
  | operand _ => 0
  | not => 1
  | and | or => 2

end LogicToken

def LogicToken.render (tokens : List LogicToken) : String :=
  " ".intercalate (tokens.map name)

end FormLogic
