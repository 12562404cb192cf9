import FormLogic.Comparison
import FormLogic.Context
import FormLogic.Field.Printer
import FormLogic.Logic.Postfix

/-!
This module contains the evaluation of fields. The conditions of a field are checked one by one, and
their results are what its visibility logic speaks about. Validations are gone through twice, first
the leaves and then the composites, which speak about the results of the leaves, up to the first
failure that has a message. How long an evaluation takes is left out, except that it was measured.
-/

namespace FormLogic

inductive Scope where
  | visibility
  | validation
  | full
deriving DecidableEq

inductive Event where
  | evaluated (scope : Scope)
  | malformed (error : MalformedLogic) (logic : List LogicToken)

inductive Step where
  | condition (rule : Condition) (result : Bool)
  | visibility (logic : List LogicToken) (result : Bool)
  | leaf (rule : Leaf) (result : Bool)
  | composite (rule : Composite) (result : Bool)

namespace Step

def comparison (path : String) (op : Operator) (value : Option Json) : String :=
  let expected := match value with
    | some v => v.text
    | none => "undefined"
  path ++ " " ++ op.name ++ " " ++ expected

def line : Step → String
  | condition rule result =>
    rule.id ++ ": " ++ comparison rule.path rule.operator rule.value
      ++ " => " ++ (if result then "MATCHED" else "NOT_MATCHED")
  | visibility logic result =>
    "visibility: [" ++ LogicToken.render logic
      ++ "] => " ++ (if result then "VISIBLE" else "HIDDEN")
  | leaf rule result =>
    "validation " ++ rule.id ++ ": " ++ comparison rule.path rule.operator rule.value
      ++ " => " ++ (if result then "PASSED" else "FAILED")
  | composite rule result =>
    "validation " ++ rule.id ++ ": [" ++ LogicToken.render rule.logic
      ++ "] => " ++ (if result then "PASSED" else "FAILED")

end Step

structure Observed (α : Type) where
  value : α
  steps : List Step
  events : List Event

namespace Condition

def holds (c : Condition) (ctx : Context) : Bool := c.operator.relates (ctx.get? c.path) c.value

end Condition

namespace Leaf

def holds (rule : Leaf) (ctx : Context) : Bool :=
  rule.operator.relates (ctx.get? rule.path) rule.value

end Leaf

structure Evaluation where
  name : String
  visible : Bool
  error : Option String
  trace : List String

/--
The way in which fields are evaluated: whether the steps are told, and what an operand counts as
that has no result.
-/
structure Evaluator where
  tracing : Bool
  absent : Bool

namespace Evaluator

def ofTracing (tracing : Bool) : Evaluator := ⟨tracing, false⟩

/--
The value of an expression. If it is malformed it is false, and an event says so.
-/
def judge (e : Evaluator) (outcomes : Outcomes) (logic : List LogicToken) : Bool × List Event :=
  match LogicToken.eval (outcomes.valueOf e.absent) logic with
  | .ok value => (value, [])
  | .error error => (false, [.malformed error logic])

def conditions (ctx : Context) : List Condition → Outcomes → Outcomes × List Step
  | [], outcomes => (outcomes, [])
  | c :: cs, outcomes =>
    let result := c.holds ctx
    let (outcomes, steps) := conditions ctx cs (outcomes.record c.id result)
    (outcomes, .condition c result :: steps)

def visibility (e : Evaluator) (ctx : Context) (f : Field) : Observed Bool :=
  let (outcomes, steps) := conditions ctx f.conditions .empty
  let (visible, events) := e.judge outcomes f.visibility
  ⟨visible, steps ++ [.visibility f.visibility visible], events⟩

def leaves (ctx : Context) : List Validation → Outcomes → Except String Outcomes × List Step
  | [], outcomes => (.ok outcomes, [])
  | .composite _ :: rules, outcomes => leaves ctx rules outcomes
  | .leaf rule :: rules, outcomes =>
    let result := rule.holds ctx
    -- A failure without a message refuses nothing, but composites see it.
    if !result && !rule.message.isEmpty then
      (.error rule.message, [.leaf rule result])
    else
      let (outcomes, steps) := leaves ctx rules (outcomes.record rule.id result)
      (outcomes, .leaf rule result :: steps)

def composites (e : Evaluator) (outcomes : Outcomes) : List Validation → Observed (Option String)
  | [] => ⟨none, [], []⟩
  | .leaf _ :: rules => e.composites outcomes rules
  | .composite rule :: rules =>
    let (result, events) := e.judge outcomes rule.logic
    if !result && !rule.message.isEmpty then
      ⟨some rule.message, [.composite rule result], events⟩
    else
      let rest := e.composites outcomes rules
      ⟨rest.value, .composite rule result :: rest.steps, events ++ rest.events⟩

def validation (e : Evaluator) (ctx : Context) (f : Field) : Observed (Option String) :=
  match leaves ctx f.rules .empty with
  | (.error message, steps) => ⟨some message, steps, []⟩
  | (.ok outcomes, steps) =>
    -- Composites come second wherever they stand, so that all leaves have a result.
    let rest := e.composites outcomes f.rules
    ⟨rest.value, steps ++ rest.steps, rest.events⟩

def isVisible (e : Evaluator) (ctx : Context) (f : Field) : Bool × List Event :=
  let v := e.visibility ctx f
  (v.value, v.events ++ [.evaluated .visibility])

def validate (e : Evaluator) (ctx : Context) (f : Field) : Option String × List Event :=
  let v := e.validation ctx f
  (v.value, v.events ++ [.evaluated .validation])

def evaluate (e : Evaluator) (ctx : Context) (f : Field) : Evaluation × List Event :=
  let shown := e.visibility ctx f
  let checked := e.validation ctx f
  let trace := if e.tracing then (shown.steps ++ checked.steps).map (·.line) else []
  (⟨f.name, shown.value, checked.value, trace⟩,
    shown.events ++ checked.events ++ [.evaluated .full])

end Evaluator

def Field.isVisible (f : Field) (ctx : Context) : Bool :=
  ((Evaluator.ofTracing false).isVisible ctx f).1

def Field.validate (f : Field) (ctx : Context) : Option String :=
  ((Evaluator.ofTracing false).validate ctx f).1

end FormLogic
