import FormLogic.Text.Units16

/-!
This module contains texts between double quotes, in which a backslash starts an escape. Reading is
lenient about halves of surrogate pairs: they are kept apart, since whether they are an error
depends on who asks for the text.
-/

namespace FormLogic.Text

/--
What stands at one place between the quotes: a character, or the number of half a surrogate pair.
-/
inductive Piece where
  | char (c : Char)
  | half (unit : Nat)

namespace Piece

def ofUnit (unit : Nat) : Piece := if isHalf unit then half unit else char (Char.ofNat unit)

/--
The characters of the pieces, provided that every half is followed by its other half.
-/
def join? : List Piece → Option (List Char)
  | [] => some []
  | char c :: rest => (join? rest).map (c :: ·)
  | half high :: half low :: rest =>
    if high < 0xDC00 ∧ 0xDC00 ≤ low then
      (join? rest).map (Char.ofNat (0x10000 + (high - 0xD800) * 0x400 + (low - 0xDC00)) :: ·)
    else
      none
  | half _ :: _ => none

end Piece

def hexDigit? (c : Char) : Option Nat :=
  if c.isDigit then some (c.toNat - '0'.toNat)
  else if 'a' ≤ c ∧ c ≤ 'f' then some (c.toNat - 'a'.toNat + 10)
  else if 'A' ≤ c ∧ c ≤ 'F' then some (c.toNat - 'A'.toNat + 10)
  else none

def hex? (cs : List Char) : Option Nat :=
  cs.foldlM (fun value c => (hexDigit? c).map (16 * value + ·)) 0

def unescape? : Char → Option Char
  | '"' => some '"'
  | '\\' => some '\\'
  | '/' => some '/'
  | 'b' => some '\x08'
  | 'f' => some '\x0c'
  | 'n' => some '\n'
  | 'r' => some '\r'
  | 't' => some '\t'
  | _ => none

/--
Read up to the closing quote. The number is how many characters that takes, the quote included.
-/
def scan? : List Char → Option (List Piece × Nat)
  | [] => none
  | '"' :: _ => some ([], 1)
  | '\\' :: 'u' :: a :: b :: c :: d :: rest => do
    let unit ← hex? [a, b, c, d]
    let (pieces, width) ← scan? rest
    return (.ofUnit unit :: pieces, width + 6)
  | '\\' :: e :: rest => do
    let c ← unescape? e
    let (pieces, width) ← scan? rest
    return (.char c :: pieces, width + 2)
  | c :: rest => do
    guard (0x20 ≤ c.toNat ∧ c ≠ '\\')
    let (pieces, width) ← scan? rest
    return (.char c :: pieces, width + 1)

def hexChar (n : Nat) : Char := if n < 10 then Char.ofNat (48 + n) else Char.ofNat (87 + n)

/--
A character as it is written between quotes: only quotes, backslashes and control characters are
escaped.
-/
def escape (c : Char) : List Char :=
  match c with
  | '"' => ['\\', '"']
  | '\\' => ['\\', '\\']
  | '\x08' => ['\\', 'b']
  | '\x0c' => ['\\', 'f']
  | '\n' => ['\\', 'n']
  | '\r' => ['\\', 'r']
  | '\t' => ['\\', 't']
  | c =>
    if c.toNat < 0x20 then
      ['\\', 'u', '0', '0', hexChar (c.toNat / 16), hexChar (c.toNat % 16)]
    else
      [c]

def quote (cs : List Char) : List Char := '"' :: (cs.flatMap escape ++ ['"'])

end FormLogic.Text
