import FormLogic.Logic.Token

/-!
This module contains the evaluation of logic expressions in postfix form on a stack of truth values.
-/

namespace FormLogic

/--
An operator that finds too few values on the stack. Positions count from one.
-/
structure MalformedLogic where
  operator : LogicToken
  position : Nat
deriving DecidableEq

namespace MalformedLogic

def message (e : MalformedLogic) : String :=
  "逻辑表达式格式错误: 第 " ++ e.position.repr ++ " 个记号 " ++ e.operator.name ++ " 缺少操作数"

end MalformedLogic

namespace LogicToken

def effect? (values : String → Bool) (token : LogicToken) (stack : List Bool) :
    Option (List Bool) :=
  -- The right operand of an operator is on top.
  match token, stack with
  | operand id, stack => some (values id :: stack)
  | not, a :: stack => some ((!a) :: stack)
  | and, a :: b :: stack => some ((a && b) :: stack)
  | or, a :: b :: stack => some ((a || b) :: stack)
  | _, _ => none

/--
Evaluate the tokens from the given position on. What is on top of the stack at the end is the value,
and an empty stack counts as true.
-/
def run (values : String → Bool) (position : Nat) :
    List LogicToken → List Bool → Except MalformedLogic Bool
  | [], stack => .ok (stack.head?.getD true)
  | token :: tokens, stack =>
    match token.effect? values stack with
    | some stack => run values (position + 1) tokens stack
    | none => .error ⟨token, position⟩

def eval (values : String → Bool) (tokens : List LogicToken) : Except MalformedLogic Bool :=
  run values 1 tokens []

def holds (values : String → Bool) (tokens : List LogicToken) : Bool :=
  match eval values tokens with
  | .ok value => value
  | .error _ => false

end LogicToken

/--
The results of conditions by their ids. Of two results with the same id the later one counts.
-/
structure Outcomes where
  results : List (String × Bool)

namespace Outcomes

def empty : Outcomes := ⟨[]⟩

def record (o : Outcomes) (id : String) (result : Bool) : Outcomes := ⟨(id, result) :: o.results⟩

def find? (o : Outcomes) (id : String) : Option Bool := o.results.lookup id

/--
The value of an operand. `absent` is the value of one that has no result.
-/
def valueOf (o : Outcomes) (absent : Bool) (id : String) : Bool := (o.find? id).getD absent

@[simp]
theorem find?_empty (id : String) : empty.find? id = none := rfl

theorem find?_record (o : Outcomes) (id other : String) (result : Bool) :
    (o.record id result).find? other = if other = id then some result else o.find? other := by
  simp only [find?, record, List.lookup_cons]
  split <;> simp_all

end Outcomes

end FormLogic
