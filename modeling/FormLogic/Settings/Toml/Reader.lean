import FormLogic.Settings.Toml.Tree
import FormLogic.Settings.Toml.Word

/-!
This module contains the reading of settings from TOML files.
-/

namespace FormLogic.Toml

def maxDepth : Nat := 80

mutual

/--
The value at the front and what follows it. At most `room` further lists and tables may be opened
one inside the other, and a list or a table has at most `fuel` parts.
-/
def value? (fuel room : Nat) (cs : List Char) : Option (Setting × List Char) :=
  match fuel with
  | 0 => none
  | fuel + 1 =>
    match cs, room with
    | '[' :: _, 0 | '\x7b' :: _, 0 => none
    | '[' :: cs, room + 1 =>
      (items? fuel room (skipLines false cs)).map fun (items, rest) => (.list items, rest)
    | '\x7b' :: cs, room + 1 => do
      let (statements, rest) ← members? fuel room (skipLines false cs)
      let members ← Tree.ofStatements? statements
      return (.table members, rest)
    | '"' :: _, _ | '\'' :: _, _ =>
      (quoted? cs).map fun (text, rest) => (.text (String.ofList text), rest)
    | _, _ =>
      let (word, rest) := splitWord cs
      (word? word).map (·, rest)

/--
The items up to the closing bracket and what follows it. The last item may have a comma behind it.
-/
def items? (fuel room : Nat) (cs : List Char) : Option (List Setting × List Char) :=
  match fuel with
  | 0 => none
  | fuel + 1 =>
    match cs with
    | ']' :: cs => some ([], cs)
    | cs => do
      let (item, rest) ← value? fuel room cs
      match skipLines false rest with
      | ']' :: rest => return ([item], rest)
      | ',' :: rest =>
        let (items, rest) ← items? fuel room (skipLines false rest)
        return (item :: items, rest)
      | _ => none

/--
The members up to the closing brace and what follows it. The last one may have a comma behind it.
-/
def members? (fuel room : Nat) (cs : List Char) : Option (List Statement × List Char) :=
  match fuel with
  | 0 => none
  | fuel + 1 =>
    match cs with
    | '\x7d' :: cs => some ([], cs)
    | cs => do
      let (key, rest) ← Key.read? maxDepth cs
      guard (rest.head? = some '=')
      let (value, rest) ← value? fuel room (skipBlanks (rest.drop 1))
      match skipLines false rest with
      | '\x7d' :: rest => return ([.assign key value], rest)
      | ',' :: rest =>
        let (statements, rest) ← members? fuel room (skipLines false rest)
        return (.assign key value :: statements, rest)
      | _ => none

end

def statement? (cs : List Char) : Option (Statement × List Char) :=
  match cs with
  | '[' :: '[' :: cs => do
    let (key, rest) ← Key.read? maxDepth cs
    guard ([']', ']'].isPrefixOf rest)
    let rest ← endOfLine? (rest.drop 2)
    return (.item key, rest)
  | '[' :: cs => do
    let (key, rest) ← Key.read? maxDepth cs
    guard (rest.head? = some ']')
    let rest ← endOfLine? (rest.drop 1)
    return (.header key, rest)
  | cs => do
    let (key, rest) ← Key.read? maxDepth cs
    guard (rest.head? = some '=')
    let (value, rest) ← value? cs.length maxDepth (skipBlanks (rest.drop 1))
    let rest ← endOfLine? rest
    return (.assign key value, rest)

def statements? (fuel : Nat) (cs : List Char) : Option (List Statement) :=
  match fuel with
  | 0 => none
  | fuel + 1 =>
    match skipLines false cs with
    | [] => some []
    | cs => do
      let (statement, rest) ← statement? cs
      let statements ← statements? fuel rest
      return statement :: statements

/--
The settings of a file, if it is TOML. It may start with a byte order mark.
-/
def read? (text : String) : Option (List (String × Setting)) := do
  let cs := text.toList
  let cs ← plainLines? (if cs.head? = some '\uFEFF' then cs.tail else cs)
  let statements ← statements? (cs.length + 1) cs
  Tree.ofStatements? statements

end FormLogic.Toml
