import FormLogic.Field.Basic
import FormLogic.Json.Decode

/-!
This module contains the reading of fields and their rules from JSON. A record is an object or an
array of its members; members with a default may be absent, and an absent expected value is
undefined.
-/

namespace FormLogic

open Document Mismatch

namespace Operator

def named (name : String) : Except Fault Operator :=
  match ofName? name with
  | some op => .ok op
  | none => .error (.mismatch (.unknownOperator name))

/--
An operator is its name, or an object with the name as its only key and `null` as its value.
-/
def ofDocument (room : Nat) : Document → Except Fault Operator
  | .string (some name) => named name
  | .object ((some name, d) :: members) closed =>
    if room = 0 then
      .error .notJson
    else do
      let op ← named name
      d.asUnit
      if members.isEmpty && closed then .ok op else .error .notJson
  | _ => .error .notJson

end Operator

namespace LogicToken

def ofDocument (room : Nat) (d : Document) : Except Fault (List LogicToken) :=
  d.asList (fun _ token => ofName <$> token.asText) room

end LogicToken

namespace Condition

structure Draft where
  id : Option String
  path : Option String
  operator : Option Operator
  value : Option Json

def form : RecordForm Draft Condition where
  name := "Condition"
  slots := [
    .ofMember "id" true (fun _ d => d.asText) (·.id)
      fun draft v => { draft with id := some v },
    .ofMember "field" true (fun _ d => d.asText) (·.path)
      fun draft v => { draft with path := some v },
    .ofMember "operator" true Operator.ofDocument (·.operator)
      fun draft v => { draft with operator := some v },
    .ofMember "value" false asValue (·.value)
      fun draft v => { draft with value := some v }]
  blank := ⟨none, none, none, none⟩
  finish draft := do
    let id ← require "id" draft.id
    let path ← require "field" draft.path
    let operator ← require "operator" draft.operator
    return ⟨id, path, operator, draft.value⟩

def ofDocument (room : Nat) (d : Document) : Except Fault Condition := form.read room d

end Condition

namespace Validation

/--
A leaf and a composite have the same members. Some of them accept `null` for their absence.
-/
structure Draft where
  id : Option String
  message : Option String
  logic : Option (Option (List LogicToken))
  path : Option (Option String)
  operator : Option (Option Operator)
  value : Option Json

/--
A validation with logic is a composite, whatever else it has.
-/
def ofDraft (draft : Draft) : Except Mismatch Validation := do
  let id ← require "id" draft.id
  let message := draft.message.getD ""
  match draft.logic.join with
  | some logic => return composite ⟨id, logic, message⟩
  | none =>
    match draft.path.join, draft.operator.join with
    | none, _ => throw (.incompleteValidation id .logicOrField)
    | some _, none => throw (.incompleteValidation id .operator)
    | some path, some operator => return leaf ⟨id, path, operator, draft.value, message⟩

def form : RecordForm Draft Validation where
  name := "RawValidation"
  slots := [
    .ofMember "id" true (fun _ d => d.asText) (·.id)
      fun draft v => { draft with id := some v },
    .ofMember "message" false (fun _ d => d.asText) (·.message)
      fun draft v => { draft with message := some v },
    .ofMember "logic" false (fun room d => d.asOption (LogicToken.ofDocument room)) (·.logic)
      fun draft v => { draft with logic := some v },
    .ofMember "field" false (fun _ d => d.asOption asText) (·.path)
      fun draft v => { draft with path := some v },
    .ofMember "operator" false (fun room d => d.asOption (Operator.ofDocument room)) (·.operator)
      fun draft v => { draft with operator := some v },
    .ofMember "value" false asValue (·.value)
      fun draft v => { draft with value := some v }]
  blank := ⟨none, none, none, none, none, none⟩
  finish := ofDraft

def ofDocument (room : Nat) (d : Document) : Except Fault Validation := form.read room d

end Validation

namespace Field

structure Draft where
  name : Option String
  label : Option String
  kind : Option String
  conditions : Option (List Condition)
  visibility : Option (List LogicToken)
  validations : Option (Option (List Validation))

def form : RecordForm Draft Field where
  name := "FieldConfig"
  slots := [
    .ofMember "name" true (fun _ d => d.asText) (·.name)
      fun draft v => { draft with name := some v },
    .ofMember "label" false (fun _ d => d.asText) (·.label)
      fun draft v => { draft with label := some v },
    .ofMember "type" false (fun _ d => d.asText) (·.kind)
      fun draft v => { draft with kind := some v },
    .ofMember "conditions" false (asList Condition.ofDocument) (·.conditions)
      fun draft v => { draft with conditions := some v },
    .ofMember "visibilityLogic" false LogicToken.ofDocument (·.visibility)
      fun draft v => { draft with visibility := some v },
    .ofMember "validations" false (fun room d => d.asOption (asList Validation.ofDocument room))
      (·.validations) fun draft v => { draft with validations := some v }]
  blank := ⟨none, none, none, none, none, none⟩
  finish draft := do
    let name ← require "name" draft.name
    return ⟨name, draft.label.getD "", draft.kind.getD "", draft.conditions.getD [],
      draft.visibility.getD [], draft.validations.join⟩

def ofDocument (room : Nat) (d : Document) : Except Fault Field := form.read room d

def ofText (text : String) : Except Fault Field := decode ofDocument text

def listOfText (text : String) : Except Fault (List Field) := decode (asList ofDocument) text

end Field

end FormLogic
