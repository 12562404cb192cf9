import FormLogic.Json.Document

/-!
This module contains the tokens of JSON texts.
-/

namespace FormLogic

inductive Token where
  | openArray
  | closeArray
  | openObject
  | closeObject
  | comma
  | colon
  | leaf (value : Document)
  /-- What is no token. Nothing that follows is looked at. -/
  | stray

namespace Token

def isSpace (c : Char) : Bool := c == ' ' || c == '\t' || c == '\n' || c == '\r'

/--
The token that starts with `c` and the number of characters of `cs` that belong to it.
-/
def scan (c : Char) (cs : List Char) : Token × Nat :=
  match c with
  | '[' => (openArray, 0)
  | ']' => (closeArray, 0)
  | '\x7b' => (openObject, 0)
  | '\x7d' => (closeObject, 0)
  | ',' => (comma, 0)
  | ':' => (colon, 0)
  | 'n' => if ['u', 'l', 'l'].isPrefixOf cs then (leaf .null, 3) else (stray, 0)
  | 't' => if ['r', 'u', 'e'].isPrefixOf cs then (leaf (.bool true), 3) else (stray, 0)
  | 'f' => if ['a', 'l', 's', 'e'].isPrefixOf cs then (leaf (.bool false), 4) else (stray, 0)
  | '"' =>
    match Text.scan? cs with
    | some (pieces, width) => (leaf (.string ((Text.Piece.join? pieces).map String.ofList)), width)
    | none => (stray, 0)
  | c =>
    match Numeral.scan? (c :: cs) with
    | some (numeral, width) => (leaf (.number (Number.ofNumeral? numeral)), width - 1)
    | none => (stray, 0)

/--
The tokens of a text up to the first thing that is none.
-/
def ofChars (cs : List Char) : List Token := go 0 cs
where
  go (skip : Nat) : List Char → List Token
    | [] => []
    | c :: cs =>
      match skip with
      | skip + 1 => go skip cs
      | 0 =>
        if isSpace c then
          go 0 cs
        else
          match scan c cs with
          | (stray, _) => [stray]
          | (token, width) => token :: go width cs

end Token

end FormLogic
