import FormLogic.Number.Numeral

/-!
This module contains dates, times of day and moments, which are a date with a time. As settings they
are texts in a fixed form.
-/

namespace FormLogic.Toml

def twoDigits? (least most : Nat) : List Char → Option (List Char × List Char)
  | a :: b :: cs =>
    let value := Numeral.digitsValue [a, b]
    if a.isDigit && b.isDigit && least ≤ value && value ≤ most then some ([a, b], cs) else none
  | _ => none

def mark? (c : Char) : List Char → Option (List Char)
  | d :: cs => if c = d then some cs else none
  | [] => none

def isLeapYear (year : Nat) : Bool := year % 4 == 0 && (year % 100 != 0 || year % 400 == 0)

def daysIn (year month : Nat) : Nat :=
  if month = 2 then (if isLeapYear year then 29 else 28)
  else if month ∈ [4, 6, 9, 11] then 30
  else 31

def date? (cs : List Char) : Option (List Char × List Char) := do
  let year := cs.take 4
  guard (year.length = 4 ∧ year.all Char.isDigit)
  let (month, rest) ← twoDigits? 1 12 (← mark? '-' (cs.drop 4))
  let most := daysIn (Numeral.digitsValue year) (Numeral.digitsValue month)
  let (day, rest) ← twoDigits? 1 most (← mark? '-' rest)
  return (year ++ '-' :: month ++ '-' :: day, rest)

/--
The fraction of a second behind a point. It has nine digits at most, and zeros at its end do not
count.
-/
def fraction? : List Char → Option (List Char × List Char)
  | '.' :: cs => do
    let (ds, rest) := Numeral.digits cs
    guard (!ds.isEmpty)
    let ds := ((ds.take 9).reverse.dropWhile (· == '0')).reverse
    return ('.' :: (if ds.isEmpty then ['0'] else ds), rest)
  | cs => some ([], cs)

def time? (cs : List Char) : Option (List Char × List Char) := do
  let (hour, rest) ← twoDigits? 0 23 cs
  let (minute, rest) ← twoDigits? 0 59 (← mark? ':' rest)
  match rest with
  | ':' :: rest =>
    let (second, rest) ← twoDigits? 0 60 rest
    let (fraction, rest) ← fraction? rest
    return (hour ++ ':' :: minute ++ ':' :: second ++ fraction, rest)
  | rest => return (hour ++ ':' :: minute, rest)

/--
How far the time is ahead of universal time, or nothing.
-/
def offset? : List Char → Option (List Char)
  | [] => some []
  | ['z'] | ['Z'] => some ['Z']
  | sign :: cs => do
    guard (sign = '+' ∨ sign = '-')
    let (hour, rest) ← twoDigits? 0 23 cs
    let (minute, rest) ← twoDigits? 0 59 (← mark? ':' rest)
    guard rest.isEmpty
    let isZero := (hour ++ minute).all (· == '0')
    return (if isZero then '+' else sign) :: hour ++ ':' :: minute

def moment? (word : List Char) : Option (List Char) :=
  match date? word with
  | some (date, []) => some date
  | some (date, mark :: rest) => do
    guard (mark = 'T' ∨ mark = 't' ∨ mark = ' ')
    let (time, rest) ← time? rest
    let offset ← offset? rest
    return date ++ 'T' :: time ++ offset
  | none => do
    let (time, rest) ← time? word
    guard rest.isEmpty
    return time

end FormLogic.Toml
