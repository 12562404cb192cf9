import FormLogic.Text.Quoted

/-!
This module contains the parts of TOML that are plain text: lines and comments, texts between quotes
and keys.
-/

namespace FormLogic.Toml

/--
The text with plain line ends. Other control characters than tabs are not allowed.
-/
def plainLines? : List Char → Option (List Char)
  | [] => some []
  | '\r' :: '\n' :: cs => (plainLines? cs).map ('\n' :: ·)
  | c :: cs =>
    if (c.toNat < 0x20 ∧ c ≠ '\t' ∧ c ≠ '\n') ∨ c.toNat = 0x7F then
      none
    else
      (plainLines? cs).map (c :: ·)

def isBlank (c : Char) : Bool := c == ' ' || c == '\t'

def skipBlanks (cs : List Char) : List Char := cs.dropWhile isBlank

def skipLines (inComment : Bool) : List Char → List Char
  | [] => []
  | c :: cs =>
    if c = '\n' then skipLines false cs
    else if inComment || isBlank c then skipLines inComment cs
    else if c = '#' then skipLines true cs
    else c :: cs

/--
What follows the end of the line, in front of which only a comment may stand.
-/
def endOfLine? (cs : List Char) : Option (List Char) :=
  match skipBlanks cs with
  | [] => some []
  | '\n' :: cs => some cs
  | '#' :: cs => some (cs.dropWhile (· != '\n'))
  | _ => none

/--
What follows three quotes that end a text. Up to two more quotes belong to the text.
-/
def afterQuotes (quote : Char) : List Char → List Char × List Char
  | a :: b :: cs =>
    if a = quote ∧ b = quote then ([quote, quote], cs)
    else if a = quote then ([quote], b :: cs)
    else ([], a :: b :: cs)
  | [a] => if a = quote then ([quote], []) else ([], [a])
  | [] => ([], [])

/--
The text up to the closing quote and what follows it. Nothing is escaped.
-/
def literalText? : List Char → Option (List Char × List Char)
  | [] => none
  | c :: cs =>
    if c = '\'' then some ([], cs)
    else if c = '\n' then none
    else (literalText? cs).map fun (text, rest) => (c :: text, rest)

def longLiteralText? : List Char → Option (List Char × List Char)
  | [] => none
  | '\'' :: '\'' :: '\'' :: cs => some (afterQuotes '\'' cs)
  | c :: cs => (longLiteralText? cs).map fun (text, rest) => (c :: text, rest)

def numbered? (ds : List Char) : Option Char := do
  let n ← Text.hex? ds
  guard (n < 0xD800 ∨ (0xE000 ≤ n ∧ n < 0x110000))
  return Char.ofNat n

/--
What the characters behind a backslash stand for, and how many of them do. In a text of several
lines a backslash at the end of a line takes away the line end and all blanks that follow.
-/
def escape? (long : Bool) (cs : List Char) : Option (List Char × Nat) :=
  if long && (skipBlanks cs).head? == some '\n' then
    some ([], (cs.takeWhile fun c => isBlank c || c == '\n').length)
  else
    match cs with
    | 'x' :: a :: b :: _ => (numbered? [a, b]).map fun c => ([c], 3)
    | 'u' :: a :: b :: c :: d :: _ => (numbered? [a, b, c, d]).map fun c => ([c], 5)
    | 'U' :: a :: b :: c :: d :: e :: f :: g :: h :: _ =>
      (numbered? [a, b, c, d, e, f, g, h]).map fun c => ([c], 9)
    | 'e' :: _ => some (['\x1b'], 1)
    | '/' :: _ => none
    | c :: _ => (Text.unescape? c).map fun c => ([c], 1)
    | [] => none

/--
The text after the first `skip` characters up to the closing quote, or the three closing quotes of a
text of several lines, and what follows. A backslash starts an escape.
-/
def basicText? (long : Bool) (skip : Nat) : List Char → Option (List Char × List Char)
  | [] => none
  | c :: cs =>
    match skip with
    | skip + 1 => basicText? long skip cs
    | 0 =>
      if c = '"' && !long then
        some ([], cs)
      else if c = '"' && ['"', '"'].isPrefixOf cs then
        some (afterQuotes '"' (cs.drop 2))
      else if c = '\n' && !long then
        none
      else if c = '\\' then
        match escape? long cs with
        | some (text, width) =>
          (basicText? long width cs).map fun (more, rest) => (text ++ more, rest)
        | none => none
      else
        (basicText? long 0 cs).map fun (text, rest) => (c :: text, rest)

def dropLineEnd : List Char → List Char
  | '\n' :: cs => cs
  | cs => cs

def quoted? : List Char → Option (List Char × List Char)
  | '"' :: '"' :: '"' :: cs => basicText? true 0 (dropLineEnd cs)
  | '\'' :: '\'' :: '\'' :: cs => longLiteralText? (dropLineEnd cs)
  | '"' :: cs => basicText? false 0 cs
  | '\'' :: cs => literalText? cs
  | _ => none

def isBareChar (c : Char) : Bool := c.isAlphanum || c == '_' || c == '-'

structure Key where
  tables : List String
  name : String

namespace Key

def names (key : Key) : List String := key.tables ++ [key.name]

def name? : List Char → Option (String × List Char)
  | '"' :: cs => (basicText? false 0 cs).map fun (text, rest) => (String.ofList text, rest)
  | '\'' :: cs => (literalText? cs).map fun (text, rest) => (String.ofList text, rest)
  | cs =>
    let name := cs.takeWhile isBareChar
    if name.isEmpty then none else some (String.ofList name, cs.dropWhile isBareChar)

def read? (room : Nat) (cs : List Char) : Option (Key × List Char) :=
  match room with
  | 0 => none
  | room + 1 => do
    let (name, rest) ← name? (skipBlanks cs)
    match skipBlanks rest with
    | '.' :: rest =>
      let (key, rest) ← read? room rest
      return ({ key with tables := name :: key.tables }, rest)
    | rest => return (⟨[], name⟩, rest)

end Key

end FormLogic.Toml
