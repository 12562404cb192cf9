import FormLogic.Json.Basic
import FormLogic.Text.Quoted

/-!
This module contains JSON texts as trees. A tree keeps the members of an object in the order in
which they are written, with repeated ones, and it shows where a text stops being JSON. So the
members can be gone through in reading order, and the first thing wrong is found first.
-/

namespace FormLogic

/--
A JSON text, or as much of it as can be read.
-/
inductive Document where
  | null
  | bool (b : Bool)
  /-- A number, unless it is beyond the range of binary64. -/
  | number (value : Option Number)
  /-- A text, unless it holds half a surrogate pair. -/
  | string (text : Option String)
  | array (items : List Document) (closed : Bool)
  /-- The members in the order in which they are written. A key is a text like any other. -/
  | object (members : List (Option String × Document)) (closed : Bool)
  /-- Here the text stops being JSON. -/
  | broken

namespace Document

mutual

def isIntact : Document → Bool
  | array items closed => closed && areIntact items
  | object members closed => closed && areIntactMembers members
  | broken => false
  | _ => true

def areIntact : List Document → Bool
  | [] => true
  | d :: ds => d.isIntact && areIntact ds

def areIntactMembers : List (Option String × Document) → Bool
  | [] => true
  | (_, d) :: ms => d.isIntact && areIntactMembers ms

end

/--
A text as it is written. What is no text is written as half a surrogate pair.
-/
def quote : Option String → List Char
  | some s => Text.quote s.toList
  | none => ['"', '\\', 'u', 'd', '8', '0', '0', '"']

mutual

/--
The text of an intact document without any blanks. What is out of range is written as some number or
text of that kind.
-/
def write : Document → List Char
  | null => ['n', 'u', 'l', 'l']
  | bool true => ['t', 'r', 'u', 'e']
  | bool false => ['f', 'a', 'l', 's', 'e']
  | number (some n) => n.write
  | number none => ['1', 'e', '9', '9', '9']
  | string text => quote text
  | array items _ => '[' :: (writeItems items ++ [']'])
  | object members _ => '\x7b' :: (writeMembers members ++ ['\x7d'])
  | broken => []

def writeItems : List Document → List Char
  | [] => []
  | [d] => d.write
  | d :: e :: ds => d.write ++ ',' :: writeItems (e :: ds)

def writeMembers : List (Option String × Document) → List Char
  | [] => []
  | [(k, d)] => quote k ++ ':' :: d.write
  | (k, d) :: m :: ms => quote k ++ ':' :: (d.write ++ ',' :: writeMembers (m :: ms))

end

def ofText (s : String) : Document := string (some s)

def member? {α : Type} (key : String) (write : α → Document) :
    Option α → List (Option String × Document)
  | some v => [(key, write v)]
  | none => []

end Document

namespace Json

mutual

def toDocument : Json → Document
  | null => .null
  | bool b => .bool b
  | number n => .number (some n)
  | string s => .string (some s)
  | array items => .array (itemsToDocuments items) true
  | object members => .object (membersToDocuments members) true

def itemsToDocuments : List Json → List Document
  | [] => []
  | v :: vs => v.toDocument :: itemsToDocuments vs

def membersToDocuments : List (String × Json) → List (Option String × Document)
  | [] => []
  | (k, v) :: ms => (some k, v.toDocument) :: membersToDocuments ms

end

def text (v : Json) : String := String.ofList v.toDocument.write

end Json

end FormLogic
