import FormLogic.Settings.Pattern
import FormLogic.Settings.Variables
import FormLogic.Text.Alphanumeric
import FormLogic.Text.Blank

/-!
This module contains filters that say which messages are logged: a least level for all of them, or
for those of some target, inside of some span, or with some field.
-/

namespace FormLogic

inductive LogLevel where
  | off
  | error
  | warn
  | info
  | debug
  | trace
deriving DecidableEq

namespace LogLevel

def all : List LogLevel := [off, error, warn, info, debug, trace]

def name : LogLevel → String
  | off => "off"
  | error => "error"
  | warn => "warn"
  | info => "info"
  | debug => "debug"
  | trace => "trace"

def number? (text : List Char) : Option Nat :=
  let ds := match text with
    | '+' :: ds => ds
    | ds => ds
  if !ds.isEmpty && ds.all Char.isDigit then some (Numeral.digitsValue ds) else none

/--
A level is given by its name, in capitals or not, or by its number.
-/
def ofText? (text : List Char) : Option LogLevel :=
  match number? text with
  | some n => all[n]?
  | none => all.find? fun level => level.name.toList == text.map Char.toLower

end LogLevel

/--
What the value of a field must be: a certain truth value or number, or a text that a regular
expression describes.
-/
inductive FieldValue where
  | truth (b : Bool)
  | real (x : Scalar)
  | natural (n : Nat)
  | integer (value : Int)
  | described (pattern : List Char)

namespace FieldValue

def ofText? (text : List Char) : Option FieldValue :=
  if text = "true".toList then some (truth true)
  else if text = "false".toList then some (truth false)
  else match (LogLevel.number? text).filter (· < 0x10000000000000000), Variables.whole? text with
    | some n, _ => some (natural n)
    | none, some value => some (integer value)
    | none, none =>
      match Variables.real? text with
      | some x => some (real x)
      | none => if Pattern.isPattern text then some (described text) else none

def render : FieldValue → String
  | truth b => if b then "true" else "false"
  | real x => ((Setting.real x).asText?).getD ""
  | natural n => n.repr
  | integer value => String.ofList (Numeral.writeInt value)
  | described pattern => String.ofList pattern

def rank : FieldValue → Nat
  | truth _ => 0
  | real .notANumber => 2
  | real _ => 1
  | natural _ => 3
  | integer _ => 4
  | described _ => 5

def order (a b : FieldValue) : Ordering :=
  (compare a.rank b.rank).then <|
    match a, b with
    | truth p, truth q => compare p q
    | real x, real y => (x.compare? y).getD .eq
    | natural m, natural n => compare m n
    | integer m, integer n => compare m n
    | described p, described q => compare p q
    | _, _ => .eq

end FieldValue

structure FieldMatch where
  name : String
  value : Option FieldValue

namespace FieldMatch

/--
A name, or a name and a value with an equals sign between them. A second such sign ends the value.
-/
def ofText? (text : List Char) : Option FieldMatch := do
  guard (!text.isEmpty)
  let isInside (c : Char) : Bool := c != '='
  let name := String.ofList (text.takeWhile isInside)
  match text.dropWhile isInside with
  | _ :: rest => return ⟨name, some (← FieldValue.ofText? (rest.takeWhile isInside))⟩
  | [] => return ⟨name, none⟩

def render (m : FieldMatch) : String :=
  match m.value with
  | some value => m.name ++ "=" ++ value.render
  | none => m.name

def order (a b : FieldMatch) : Ordering :=
  (compare a.value.isSome b.value.isSome).then <| (compare a.name b.name).then <|
    match a.value, b.value with
    | some v, some w => v.order w
    | _, _ => .eq

end FieldMatch

structure Directive where
  target : Option String
  span : Option String
  field : Option FieldMatch
  level : LogLevel

namespace Directive

def level? : List Char → Option LogLevel
  | [] => some .trace
  | '=' :: [] => some .trace
  | '=' :: word => LogLevel.ofText? word
  | _ => none

def inBrackets? (target : Option String) (text : List Char) : Option Directive := do
  let isInside (c : Char) : Bool := c != ']' && c != '\x7b'
  let span := String.ofList (text.takeWhile isInside)
  match text.dropWhile isInside with
  | ']' :: rest => return ⟨target, some span, none, ← level? rest⟩
  | '\x7b' :: rest =>
    let field ← FieldMatch.ofText? (rest.takeWhile (· != '\x7d'))
    let rest := rest.dropWhile (· != '\x7d')
    guard (['\x7d', ']'].isPrefixOf rest)
    return ⟨target, if span.isEmpty then none else some span, some field, ← level? (rest.drop 2)⟩
  | _ => none

/--
A level, a target, or a target with a level. Behind the target there can be a span and a field in
brackets.
-/
def ofText? (text : List Char) : Option Directive := do
  guard (!text.any Text.isBlank)
  match text with
  | '[' :: rest => inBrackets? none rest
  | text =>
    let isTargetStart (c : Char) : Bool :=
      Text.isAlphanumeric c || c == '-' || c == ':' || c == '_'
    guard (text.head?.any isTargetStart)
    let isInside (c : Char) : Bool := c != '=' && c != '['
    let target := String.ofList (text.takeWhile isInside)
    match text.dropWhile isInside with
    | [] =>
      match LogLevel.ofText? text with
      | some level => return ⟨none, none, none, level⟩
      | none => return ⟨some target, none, none, .trace⟩
    | '[' :: rest => inBrackets? (some target) rest
    | rest => return ⟨some target, none, none, ← level? rest⟩

def order (a b : Directive) : Ordering :=
  let size (d : Directive) : Option Nat := d.target.map String.utf8ByteSize
  Ordering.swap <|
    (compare (size a) (size b)).then <|
    (compare a.span.isSome b.span.isSome).then <|
    (compare a.field.isSome b.field.isSome).then <|
    (compare a.target b.target).then <|
    (compare a.span b.span).then <|
    match a.field, b.field with
    | some f, some g => f.order g
    | _, _ => .eq

def insert (d : Directive) : List Directive → List Directive
  | [] => [d]
  | e :: es =>
    match d.order e with
    | .lt => d :: e :: es
    | .eq => d :: es
    | .gt => e :: insert d es

def sort (directives : List Directive) : List Directive :=
  directives.foldl (fun sorted d => d.insert sorted) []

def isGeneral (d : Directive) : Bool := d.span.isNone && d.field.all (·.value.isNone)

def isSpecial (d : Directive) : Bool := d.span.isSome || d.field.isSome

def render (d : Directive) : String :=
  let field := match d.field with
    | some m => "\x7b" ++ m.render ++ "\x7d"
    | none => ""
  let start := d.target.getD "" ++ if d.isSpecial then "[" ++ d.span.getD "" ++ field ++ "]" else ""
  if d.target.isSome || d.isSpecial then start ++ "=" ++ d.level.name else d.level.name

end Directive

structure LogFilter where
  general : List Directive
  special : List Directive

namespace LogFilter

/--
A field without a value can be one of a message or of a span, so that such a directive is both.
-/
def ofDirectives (directives : List Directive) : LogFilter :=
  { general := Directive.sort (directives.filter (·.isGeneral))
    special := Directive.sort (directives.filter (·.isSpecial)) }

/--
A filter is a list of directives with commas between them. Nothing between two commas is no
directive.
-/
def ofText? (text : String) : Option LogFilter := do
  let parts := (text.toList.splitOn ',').filter (!·.isEmpty)
  let directives ← parts.mapM Directive.ofText?
  return ofDirectives directives

def render (filter : LogFilter) : String :=
  ",".intercalate ((filter.general ++ filter.special).map (·.render))

/--
The filter for a log level, where that of the environment comes first. What is no filter is passed
over in favour of the level for information.
-/
def choose (environment : Option String) (logLevel : String) : LogFilter :=
  ((environment.bind ofText?).or (ofText? logLevel)).getD (ofDirectives [⟨none, none, none, .info⟩])

end LogFilter

end FormLogic
