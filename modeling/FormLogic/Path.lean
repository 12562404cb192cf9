import FormLogic.Text.Digit

/-!
This module contains the paths that lead to a part of a value. A path is a sequence of segments:
plain names after dots, numbers in brackets and quoted names in brackets. Paths are never refused:
what belongs to no segment is passed over, and a dot or a pair of brackets with nothing behind it
stands for an empty segment.
-/

namespace FormLogic.Path

def isPlain (c : Char) : Bool := c != '.' && c != '[' && c != ']'

/--
The number in front of a closing bracket: digits with an optional minus sign and an optional
fraction.
-/
def number? (cs : List Char) : Option (List Char) :=
  let minus := cs.take (if cs.head? = some '-' then 1 else 0)
  let rest := cs.drop minus.length
  let whole := rest.takeWhile Text.isDigit
  if whole.isEmpty then
    none
  else
    match rest.dropWhile Text.isDigit with
    | ']' :: _ => some (minus ++ whole)
    | '.' :: rest =>
      let fraction := rest.takeWhile Text.isDigit
      match fraction, rest.dropWhile Text.isDigit with
      | [], _ => none
      | _, ']' :: _ => some (minus ++ whole ++ '.' :: fraction)
      | _, _ => none
    | _ => none

/--
The text in front of a closing quote and bracket, and its width together with them. A backslash
stands for the character behind it, which must not be a line feed.
-/
def quoted? (quote : Char) : List Char → Option (List Char × Nat)
  | [] => none
  | '\\' :: c :: cs =>
    if c = '\n' then none else (quoted? quote cs).map fun (text, width) => (c :: text, width + 2)
  | c :: cs =>
    if c = quote then
      if cs.head? = some ']' then some ([], 2) else none
    else if c = '\\' then
      none
    else
      (quoted? quote cs).map fun (text, width) => (c :: text, width + 1)

def segment? : List Char → Option (List Char × Nat)
  | [] => none
  | '[' :: cs =>
    match number? cs with
    | some number => some (number, number.length + 2)
    | none =>
      match cs with
      | '"' :: cs => (quoted? '"' cs).map fun (text, width) => (text, width + 2)
      | '\'' :: cs => (quoted? '\'' cs).map fun (text, width) => (text, width + 2)
      | _ => none
  | c :: cs =>
    if isPlain c then
      let name := (c :: cs).takeWhile isPlain
      some (name, name.length)
    else
      none

def afterJoint? : List Char → Option (List Char)
  | '.' :: cs => some cs
  | '[' :: ']' :: cs => some cs
  | _ => none

/--
The text starts with a dot or an empty pair of brackets that has no name behind it.
-/
def opensEmpty (cs : List Char) : Bool :=
  match afterJoint? cs with
  | some cs => cs.isEmpty || (afterJoint? cs).isSome
  | none => false

/--
A part of a path: a segment as it is written with the text that it stands for, or a character
between segments, behind which there can be an empty segment.
-/
inductive Piece where
  | segment (written text : List Char)
  | joint (c : Char) (opensEmpty : Bool)

namespace Piece

def source : Piece → List Char
  | segment written _ => written
  | joint c _ => [c]

def segment? : Piece → Option (List Char)
  | segment _ text => some text
  | joint _ opensEmpty => if opensEmpty then some [] else none

end Piece

def pieces (skip : Nat) : List Char → List Piece
  | [] => []
  | c :: cs =>
    -- Skipping character by character keeps the recursion on the text.
    match skip with
    | skip + 1 => pieces skip cs
    | 0 =>
      match segment? (c :: cs) with
      | some (text, width) => .segment ((c :: cs).take width) text :: pieces (width - 1) cs
      | none => .joint c (opensEmpty (c :: cs)) :: pieces 0 cs

/--
The segments of a path. A dot at the front has an empty segment before it.
-/
def segments (path : String) : List String :=
  let cs := path.toList
  let first := if cs.head? = some '.' then [[]] else []
  (first ++ (pieces 0 cs).filterMap Piece.segment?).map String.ofList

end FormLogic.Path
