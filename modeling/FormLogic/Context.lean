import FormLogic.Json.Basic
import FormLogic.Path
import FormLogic.Text.Units16

/-!
This module contains the data against which conditions are checked, and how paths lead into it.
-/

namespace FormLogic

namespace Json

/--
The index that a segment denotes: a number without superfluous zeros that fits a machine word.
-/
def index? (segment : String) : Option Nat :=
  let cs := segment.toList
  if Numeral.isWholePart cs && cs.all Char.isDigit then
    let n := Numeral.digitsValue cs
    if n < 0x10000000000000000 then some n else none
  else
    none

/--
The part of a value that one segment leads to. Texts and arrays have a length, and texts are indexed
by UTF-16 code unit.
-/
def part? (v : Json) (segment : String) : Option Json :=
  match v with
  | object members => find? members segment
  | array items =>
    if segment = "length" then
      some (number (.count items.length))
    else do
      let i ← index? segment
      items[i]?
  | string s =>
    if segment = "length" then
      some (number (.count (Text.units16 s.toList).length))
    else do
      let i ← index? segment
      let c ← Text.charAtUnit? s.toList i
      return string (String.ofList [c])
  | _ => none

def descend? (v : Json) : List String → Option Json
  | [] => some v
  | segment :: segments => do
    let w ← v.part? segment
    w.descend? segments

end Json

structure Context where
  data : Json

namespace Context

def literal? (ctx : Context) (path : String) : Option Json :=
  match ctx.data with
  | .object members => Json.find? members path
  | _ => none

/--
The value to which a path leads. A member that has the whole path as its key comes first, and a path
without segments leads nowhere.
-/
def get? (ctx : Context) (path : String) : Option Json :=
  match ctx.literal? path with
  | some v => some v
  | none =>
    match Path.segments path with
    | [] => none
    | segments => ctx.data.descend? segments

/--
Lay values over the data. Members of an object replace those of the data with the same key, `null`
changes nothing, and any other value takes the place of the data.
-/
def overlay (ctx : Context) (values : Json) : Context :=
  match ctx.data, values with
  | .object base, .object extra =>
    ⟨.object (extra.foldl (fun members (key, value) => Json.insert members key value) base)⟩
  | _, .null => ctx
  | _, other => ⟨other⟩

end Context

end FormLogic
