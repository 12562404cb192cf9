import FormLogic.Field.Reader

/-!
This module contains fields as they are kept: numbered in the order in which they come in, with the
paths that they read and with what is doubtful about their rules. Doubts are reported but never
stand in the way.
-/

namespace FormLogic

namespace Field

def paths (f : Field) : List String :=
  (f.conditions.map (·.path) ++ f.leaves.map (·.path)).eraseDups.mergeSort

/--
Add the ids that occur again, each once, at its second occurrence.
-/
def addRepeated (seen : List String) (found : List String) : List String → List String
  | [] => found
  | id :: ids =>
    if id ∈ seen then
      addRepeated seen (if id ∈ found then found else found ++ [id]) ids
    else
      addRepeated (id :: seen) found ids

def duplicateIds (f : Field) : List String :=
  addRepeated [] (addRepeated [] [] (f.conditions.map (·.id))) (f.rules.map (·.id))

/--
Add the operands that are not known, each once, at its first occurrence.
-/
def addUnknown (known : List String) (found : List String) : List LogicToken → List String
  | [] => found
  | .operand id :: tokens =>
    addUnknown known (if id ∈ known ∨ id ∈ found then found else found ++ [id]) tokens
  | _ :: tokens => addUnknown known found tokens

/--
The operands for which there is no condition, in the visibility logic, or no leaf, in composites.
-/
def unresolvedOperands (f : Field) : List String :=
  let leafIds := f.leaves.map (·.id)
  f.composites.foldl (fun found rule => addUnknown leafIds found rule.logic)
    (addUnknown (f.conditions.map (·.id)) [] f.visibility)

end Field

inductive Doubt where
  | duplicateId (id : String)
  | unresolvedOperand (id : String)

namespace Doubt

def message : Doubt → String
  | duplicateId _ => "重复的规则 ID，后定义的结果将覆盖先定义的"
  | unresolvedOperand _ => "逻辑表达式引用了未定义的 ID，将按 false 处理"

end Doubt

structure Revision where
  field : Field
  paths : List String
  duplicateIds : List String
  unresolvedOperands : List String
  number : Nat

namespace Revision

def next (last : Nat) (f : Field) : Revision :=
  ⟨f, f.paths, f.duplicateIds, f.unresolvedOperands, last + 1⟩

def name (r : Revision) : String := r.field.name

def isDoubtful (r : Revision) : Bool := !r.duplicateIds.isEmpty || !r.unresolvedOperands.isEmpty

def doubts (r : Revision) : List Doubt :=
  r.duplicateIds.map .duplicateId ++ r.unresolvedOperands.map .unresolvedOperand

/--
Take in fields one after the other. A text that is no field gets no number.
-/
def ofTexts (last : Nat) : List String → List (Except Fault Revision)
  | [] => []
  | text :: texts =>
    match Field.ofText text with
    | .ok f => .ok (next last f) :: ofTexts (last + 1) texts
    | .error fault => .error fault :: ofTexts last texts

end Revision

end FormLogic
