import FormLogic.Settings.Setting
import FormLogic.Settings.Toml.Moment
import FormLogic.Text.Quoted

/-!
This module contains the words of TOML, that is the values without quotes: truth values, numbers and
moments.
-/

namespace FormLogic.Toml

def hasProperUnderscores (isDigit : Char → Bool) : List Char → Bool
  | [] => true
  | ['_'] => false
  | '_' :: _ :: _ => false
  | [_] => true
  | a :: '_' :: b :: cs => isDigit a && isDigit b && hasProperUnderscores isDigit (b :: cs)
  | _ :: cs => hasProperUnderscores isDigit cs

def whole? (value : Int) : Option Setting :=
  if -0x8000000000000000 ≤ value ∧ value < 0x8000000000000000 then some (.whole value) else none

def inBase? (base : Nat) (ds : List Char) : Option Setting := do
  let isDigit (c : Char) : Bool := ((Text.hexDigit? c).map fun d => decide (d < base)).getD false
  guard (hasProperUnderscores isDigit ds)
  let ds := ds.filter (· != '_')
  guard (!ds.isEmpty && ds.all isDigit)
  whole? ((ds.foldl (fun value c => base * value + (Text.hexDigit? c).getD 0) 0 : Nat) : Int)

/--
The number, without its sign, that a word stands for. There is none beyond the range of binary64.
-/
def number? (negative : Bool) (word : List Char) : Option Setting := do
  if word = "inf".toList then
    return .real (.infinite negative)
  else if word = "nan".toList then
    return .real .notANumber
  else do
    guard (hasProperUnderscores Char.isDigit word && word.head? != some '-')
    let (numeral, rest) ← Numeral.strict? (word.filter (· != '_'))
    guard rest.isEmpty
    let numeral := { numeral with negative := negative }
    if numeral.fraction.isEmpty && numeral.exponent.isNone then
      let digits : Int := Numeral.digitsValue numeral.whole
      whole? (if negative then -digits else digits)
    else
      match numeral.toDecimal.toScalar with
      | .finite x => return .real (.finite x)
      | _ => none

def word? (word : List Char) : Option Setting :=
  if word = "true".toList then some (.truth true)
  else if word = "false".toList then some (.truth false)
  else match moment? word with
    | some text => some (.text (String.ofList text))
    | none =>
      match word with
      | '0' :: 'x' :: ds => inBase? 16 ds
      | '0' :: 'o' :: ds => inBase? 8 ds
      | '0' :: 'b' :: ds => inBase? 2 ds
      | '-' :: ds => number? true ds
      | '+' :: ds => number? false ds
      | ds => number? false ds

def isWordChar (c : Char) : Bool := c.isAlphanum || "_-+.:".contains c

/--
The word at the front, and what follows it. One space may stand between a date and a time.
-/
def splitWord (cs : List Char) : List Char × List Char :=
  let word := cs.takeWhile isWordChar
  let rest := cs.dropWhile isWordChar
  match date? word, rest with
  | some (_, []), ' ' :: c :: cs =>
    if c.isDigit then
      (word ++ ' ' :: (c :: cs).takeWhile isWordChar, (c :: cs).dropWhile isWordChar)
    else
      (word, rest)
  | _, _ => (word, rest)

end FormLogic.Toml
