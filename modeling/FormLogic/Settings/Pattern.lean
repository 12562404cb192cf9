import FormLogic.Text.Alphanumeric
import FormLogic.Text.Blank
import FormLogic.Text.Quoted

/-!
This module contains the check that a text is a regular expression that an automaton can follow
through a text of Unicode characters. So there are no references to what a group has matched, no
looking around, no boundaries of Unicode words, and nothing that matches half a character.
-/

namespace FormLogic.Pattern

structure Flags where
  unicode : Bool
  verbose : Bool

namespace Flags

def default : Flags := ⟨true, false⟩

/--
The flags after those of a list have been set, or cleared behind a minus sign.
-/
def change (value : Bool) (flags : Flags) : List Char → Flags
  | [] => flags
  | c :: cs =>
    if c = '-' then change false flags cs
    else if c = 'u' then change value { flags with unicode := value } cs
    else if c = 'x' then change value { flags with verbose := value } cs
    else change value flags cs

/--
A list of flags names each of them once, and there is one behind a minus sign.
-/
def isList (cs : List Char) : Bool :=
  cs.all (fun c => "imsURux-".contains c) && cs.eraseDups.length == cs.length
    && cs.getLast? != some '-'

end Flags

inductive Escape where
  /-- A character. It may be given by the two digits of a byte. -/
  | char (code : Nat) (isByte : Bool)
  /-- One of the classes of digits, blanks and word characters, or all that is not in one. -/
  | shorthand (isNegated : Bool)
  | category
  | anchor
  | boundary

namespace Escape

def ofHex? (digits : Nat) (cs : List Char) : Option (Escape × Nat) := do
  let ds := cs.take digits
  guard (ds.length = digits)
  let code ← Text.hex? ds
  guard (code < 0xD800 ∨ (0xE000 ≤ code ∧ code < 0x110000))
  return (char code (digits == 2), digits + 1)

def ofChars? : List Char → Option (Escape × Nat)
  | [] => none
  | c :: cs =>
    match c with
    | 'x' => ofHex? 2 cs
    | 'u' => ofHex? 4 cs
    | 'U' => ofHex? 8 cs
    | 'p' | 'P' => if cs.head?.any ("CLMNPSZclmnpsz".contains ·) then some (category, 2) else none
    | 'd' | 's' | 'w' => some (shorthand false, 1)
    | 'D' | 'S' | 'W' => some (shorthand true, 1)
    | 'A' | 'z' => some (anchor, 1)
    | 'b' | 'B' | '<' | '>' => some (boundary, 1)
    | 'a' => some (char 0x07 false, 1)
    | 't' => some (char 0x09 false, 1)
    | 'n' => some (char 0x0A false, 1)
    | 'v' => some (char 0x0B false, 1)
    | 'f' => some (char 0x0C false, 1)
    | 'r' => some (char 0x0D false, 1)
    | c => if c.isAlphanum || 0x80 ≤ c.toNat then none else some (char c.toNat false, 1)

/--
Outside of a class, boundaries are those of bytes, and a byte is all of a character.
-/
def isAllowed (flags : Flags) : Escape → Bool
  | char code isByte => flags.unicode || !isByte || code < 0x80
  | shorthand isNegated => flags.unicode || !isNegated
  | category => flags.unicode
  | anchor => true
  | boundary => !flags.unicode

def isAllowedInClass (flags : Flags) : Escape → Bool
  | char code _ => flags.unicode || code < 0x80
  | shorthand isNegated => flags.unicode || !isNegated
  | category => flags.unicode
  | anchor | boundary => false

def code? : Escape → Option Nat
  | char code _ => some code
  | _ => none

end Escape

def classNames : List String :=
  ["alnum", "alpha", "ascii", "blank", "cntrl", "digit", "graph", "lower", "print", "punct",
    "space", "upper", "word", "xdigit"]

/--
The number of characters behind a bracket that name a class between colons, and whether all is meant
that is not in the class.
-/
def namedClass? : List Char → Option (Nat × Bool)
  | ':' :: cs =>
    let isNegated := cs.head? == some '^'
    let cs := if isNegated then cs.drop 1 else cs
    let name := cs.takeWhile (· != ':')
    if String.ofList name ∈ classNames ∧ [':', ']'].isPrefixOf (cs.drop name.length) then
      some (name.length + (if isNegated then 4 else 3), isNegated)
    else
      none
  | _ => none

inductive ClassItem where
  | start
  | startMinus
  | complete
  /-- A character, unless it is a class, with which a range can begin. -/
  | single (code : Option Nat)
  | range (low : Nat)
deriving DecidableEq

structure ClassPosition where
  /-- The number of classes that are open, one inside of the other. -/
  depth : Nat
  last : ClassItem

namespace ClassPosition

def start : ClassPosition := ⟨1, .start⟩

def enter (p : ClassPosition) : ClassPosition := ⟨p.depth + 1, .start⟩

def leave (p : ClassPosition) : ClassPosition := ⟨p.depth - 1, .complete⟩

/--
Behind a character or a class, where it can be in a class.
-/
def put? (flags : Flags) (p : ClassPosition) (item : Escape) : Option ClassPosition :=
  if item.isAllowedInClass flags then
    match p.last, item.code? with
    | .range low, some high => if low ≤ high then some { p with last := .complete } else none
    | .range _, none => none
    | _, code => some { p with last := .single code }
  else
    none

def step? (flags : Flags) (p : ClassPosition) (c : Char) (cs : List Char) :
    Option (ClassPosition × Nat) :=
  let next := cs.head?
  let isInRange := match p.last with
    | .range _ => true
    | _ => false
  if flags.verbose && Text.isBlank c then
    some (p, 0)
  else if flags.verbose && c == '#' then
    some (p, (cs.takeWhile (· != '\n')).length)
  else if c = '\\' then do
    let (escape, width) ← Escape.ofChars? cs
    return (← p.put? flags escape, width)
  else if isInRange then
    (p.put? flags (.char c.toNat false)).map (·, 0)
  else if c = '-' ∧ (p.last = .start ∨ p.last = .startMinus) then
    some ({ p with last := .startMinus }, 0)
  else if c = ']' ∧ p.last = .start then
    some ({ p with last := .complete }, 0)
  else if c = ']' then
    some (p.leave, 0)
  else if c = '[' then
    match namedClass? cs with
    | some (width, isNegated) =>
      if flags.unicode || !isNegated then some ({ p with last := .complete }, width) else none
    | none =>
      let isNegated := next == some '^'
      if flags.unicode || !isNegated then some (p.enter, if isNegated then 1 else 0) else none
  else if (c = '&' ∨ c = '-' ∨ c = '~') ∧ next = some c then
    some ({ p with last := .complete }, 1)
  else
    match p.last with
    | .single code =>
      if c = '-' ∧ next ≠ some ']' then
        code.map fun low => ({ p with last := .range low }, 0)
      else
        (p.put? flags (.char c.toNat false)).map (·, 0)
    | _ => (p.put? flags (.char c.toNat false)).map (·, 0)

def width? (flags : Flags) (p : ClassPosition) (skip : Nat) : List Char → Option Nat
  | [] => none
  | c :: cs =>
    match skip with
    | skip + 1 => (p.width? flags skip cs).map (· + 1)
    | 0 =>
      match p.step? flags c cs with
      | some (p, skip) =>
        if p.depth = 0 then some 1 else (p.width? flags skip cs).map (· + 1)
      | none => none

end ClassPosition

inductive GroupHead where
  | group (flags : Flags)
  | named (name : List Char)
  /-- Flags for what follows, and no group. -/
  | setting (flags : Flags)

def groupHead? (flags : Flags) : List Char → Option (GroupHead × Nat)
  | '?' :: 'P' :: '<' :: cs => (name? cs).map fun name => (.named name, name.length + 4)
  | '?' :: '<' :: cs => (name? cs).map fun name => (.named name, name.length + 3)
  | '?' :: cs =>
    let list := cs.takeWhile fun c => c != ':' && c != ')'
    let flags := flags.change true list
    match cs.drop list.length with
    | ':' :: _ => if Flags.isList list then some (.group flags, list.length + 2) else none
    | ')' :: _ =>
      if Flags.isList list && !list.isEmpty then some (.setting flags, list.length + 2) else none
    | _ => none
  | _ => some (.group flags, 0)
where
  name? (cs : List Char) : Option (List Char) :=
    let name := cs.takeWhile (· != '>')
    if cs.contains '>' && name.head?.any (fun c => Text.isLetter c || c == '_')
        && name.all (fun c => Text.isAlphanumeric c || "_.[]".contains c) then
      some name
    else
      none

def maxDepth : Nat := 250

structure Position where
  /-- The flags around the open groups, the innermost first. -/
  groups : List Flags
  flags : Flags
  names : List (List Char)
  /-- There is something in front that can be repeated. -/
  hasOperand : Bool

namespace Position

def start : Position := ⟨[], .default, [], false⟩

def withOperand (p : Position) : Position := { p with hasOperand := true }

def enter? (p : Position) (head : GroupHead) : Option Position :=
  match head with
  | .setting flags => some { p with flags, hasOperand := false }
  | .group flags =>
    if p.groups.length < maxDepth then
      some { p with groups := p.flags :: p.groups, flags, hasOperand := false }
    else
      none
  | .named name =>
    if p.groups.length < maxDepth ∧ name ∉ p.names then
      some { p with groups := p.flags :: p.groups, names := name :: p.names, hasOperand := false }
    else
      none

def leave? (p : Position) : Option Position :=
  match p.groups with
  | flags :: groups => some { p with groups, flags, hasOperand := true }
  | [] => none

def step? (p : Position) (c : Char) (cs : List Char) : Option (Position × Nat) :=
  if p.flags.verbose && Text.isBlank c then
    some (p, 0)
  else if p.flags.verbose && c == '#' then
    some (p, (cs.takeWhile (· != '\n')).length)
  else
    match c with
    | '(' => do
      let (head, width) ← groupHead? p.flags cs
      return (← p.enter? head, width)
    | ')' => p.leave?.map (·, 0)
    | '|' => some ({ p with hasOperand := false }, 0)
    | '*' | '+' | '?' =>
      if p.hasOperand then some (p, if cs.head? = some '?' then 1 else 0) else none
    | '\x7b' => none
    | '.' => if p.flags.unicode then some (p.withOperand, 0) else none
    | '[' => do
      let isNegated := cs.head? == some '^'
      guard (p.flags.unicode || !isNegated)
      let width ← ClassPosition.start.width? p.flags (if isNegated then 1 else 0) cs
      return (p.withOperand, width)
    | '\\' => do
      let (escape, width) ← Escape.ofChars? cs
      guard (escape.isAllowed p.flags)
      return (p.withOperand, width)
    | _ => some (p.withOperand, 0)

/--
The text after the first `skip` characters is the rest of a regular expression.
-/
def isCompletedBy (p : Position) (skip : Nat) : List Char → Bool
  | [] => p.groups.isEmpty
  | c :: cs =>
    match skip with
    | skip + 1 => p.isCompletedBy skip cs
    | 0 =>
      match p.step? c cs with
      | some (p, width) => p.isCompletedBy width cs
      | none => false

end Position

/--
The text is a regular expression. Counted repetitions are not among them.
-/
def isPattern (cs : List Char) : Bool := Position.start.isCompletedBy 0 cs

end FormLogic.Pattern
