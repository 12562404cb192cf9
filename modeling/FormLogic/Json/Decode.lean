import FormLogic.Json.Fault
import FormLogic.Json.Reader

/-!
This module contains the reading of values, texts, lists and records from documents. Everything is
read in the order in which it is written, so the fault that is reported is the first one. `room` is
the number of containers that may still be opened one inside the other.
-/

namespace FormLogic

namespace Document

def found? : Document → Option Found
  | null => some .null
  | bool b => some (.bool b)
  | number value => value.map .number
  | string text => text.map .text
  | array _ _ => some .sequence
  | object _ _ => some .map
  | broken => none

def unwanted (d : Document) (wanted : Wanted) : Fault :=
  match d.found? with
  | some found => .mismatch (.wrongKind found wanted)
  | none => .notJson

def asText : Document → Except Fault String
  | string (some s) => .ok s
  | d => .error (d.unwanted .text)

def asUnit : Document → Except Fault Unit
  | null => .ok ()
  | d => .error (d.unwanted .unit)

def asList {α : Type} (item : Nat → Document → Except Fault α) (room : Nat) :
    Document → Except Fault (List α)
  | array items closed =>
    match room with
    | 0 => .error .notJson
    | room + 1 => do
      let result ← items.mapM (item room)
      if closed then .ok result else .error .notJson
  | d => .error (d.unwanted .sequence)

def asOption {α : Type} (value : Document → Except Fault α) : Document → Except Fault (Option α)
  | null => .ok none
  | d => some <$> value d

mutual

def value? (room : Nat) : Document → Option Json
  | null => some .null
  | bool b => some (.bool b)
  | number value => value.map .number
  | string text => text.map .string
  | array items closed =>
    match room with
    | 0 => none
    | room + 1 => if closed then (values? room items).map .array else none
  | object members closed =>
    match room with
    | 0 => none
    | room + 1 =>
      if closed then (memberValues? room members).map (.object ∘ Json.ofMembers) else none
  | broken => none

def values? (room : Nat) : List Document → Option (List Json)
  | [] => some []
  | d :: ds => do
    let v ← d.value? room
    let vs ← values? room ds
    return v :: vs

def memberValues? (room : Nat) :
    List (Option String × Document) → Option (List (String × Json))
  | [] => some []
  | (some k, d) :: ms => do
    let v ← d.value? room
    let rest ← memberValues? room ms
    return (k, v) :: rest
  | (none, _) :: _ => none

end

def asValue (room : Nat) (d : Document) : Except Fault Json :=
  match d.value? room with
  | some v => .ok v
  | none => .error .notJson

def maxDepth : Nat := 127

def decode {α : Type} (read : Nat → Document → Except Fault α) (text : String) :
    Except Fault α := do
  let (d, alone) := Document.read text
  let result ← read maxDepth d
  if alone then .ok result else .error .notJson

end Document

structure Slot (δ : Type) where
  key : String
  required : Bool
  isFilled : δ → Bool
  fill : Nat → Document → δ → Except Fault δ

namespace Slot

def ofMember {α δ : Type} (key : String) (required : Bool) (read : Nat → Document → Except Fault α)
    (get : δ → Option α) (set : δ → α → δ) : Slot δ where
  key := key
  required := required
  isFilled draft := (get draft).isSome
  fill room d draft := set draft <$> read room d

end Slot

/--
A form in which records are written: an object with the members in any order, or an array with the
members in the order of the slots.
-/
structure RecordForm (δ ρ : Type) where
  name : String
  slots : List (Slot δ)
  blank : δ
  finish : δ → Except Mismatch ρ

namespace RecordForm

variable {δ ρ : Type}

def slot? (form : RecordForm δ ρ) (key : String) : Option (Slot δ) :=
  form.slots.find? (·.key == key)

/--
Fill the slots in their order. Only slots that are not required may be left over at the end.
-/
def fillItems (form : RecordForm δ ρ) (room : Nat) (closed : Bool) (index : Nat) :
    List (Slot δ) → List Document → δ → Except Fault δ
  | [], items, draft => if items.isEmpty && closed then .ok draft else .error .notJson
  | slot :: slots, [], draft =>
    if !closed then
      .error .notJson
    else if slot.required then
      .error (.mismatch (.tooShort index form.name form.slots.length))
    else
      form.fillItems room closed (index + 1) slots [] draft
  | slot :: slots, item :: items, draft => do
    form.fillItems room closed (index + 1) slots items (← slot.fill room item draft)

/--
Fill the slots that the keys name. A member with another key is passed over.
-/
def fillMembers (form : RecordForm δ ρ) (room : Nat) :
    List (Option String × Document) → δ → Except Fault δ
  | [], draft => .ok draft
  | (some key, d) :: members, draft =>
    match form.slot? key with
    | some slot => do
      if slot.isFilled draft then
        .error (.mismatch (.repeated key))
      else
        form.fillMembers room members (← slot.fill room d draft)
    | none => if d.isIntact then form.fillMembers room members draft else .error .notJson
  | (none, _) :: _, _ => .error .notJson

def draft (form : RecordForm δ ρ) (room : Nat) (d : Document) : Except Fault δ :=
  match d, room with
  | .array _ _, 0 | .object _ _, 0 => .error .notJson
  | .array items closed, room + 1 => form.fillItems room closed 0 form.slots items form.blank
  | .object members closed, room + 1 => do
    let draft ← form.fillMembers room members form.blank
    if closed then .ok draft else .error .notJson
  | d, _ => .error (d.unwanted (.record form.name))

def read (form : RecordForm δ ρ) (room : Nat) (d : Document) : Except Fault ρ := do
  let draft ← form.draft room d
  (form.finish draft).mapError .mismatch

end RecordForm

def Mismatch.require {α : Type} (key : String) : Option α → Except Mismatch α
  | some v => .ok v
  | none => .error (.missing key)

end FormLogic
