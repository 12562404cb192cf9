import FormLogic.Json.Token

/-!
This module contains the way from tokens to documents: one token after the other, with the
containers that are still open on a stack, the innermost first.
-/

namespace FormLogic

/--
A container that is still open, with what it holds so far, the newest first.
-/
inductive Container where
  | array (items : List Document)
  | object (members : List (Option String × Document))
  | member (key : Option String) (members : List (Option String × Document))

namespace Container

def add (d : Document) : Container → Container
  | array items => array (d :: items)
  | object members => object members
  | member key members => object ((key, d) :: members)

/--
The document in the middle of which the text stops.
-/
def abandon (stack : List Container) : Document := go none stack
where
  /-- The innermost part, if there is any, goes into the containers around it. -/
  go (inner : Option Document) : List Container → Document
    | [] => inner.getD .broken
    | array items :: stack => go (some (.array (inner.toList ++ items).reverse false)) stack
    | object members :: stack => go (some (.object members.reverse false)) stack
    | member key members :: stack =>
      go (some (.object ((key, inner.getD .broken) :: members).reverse false)) stack

end Container

namespace Document

inductive Expectation where
  | value
  | itemOrClose
  | key
  | keyOrClose
  | colon
  | separator

inductive Reading where
  | inside (stack : List Container) (expected : Expectation)
  | complete (d : Document)
  | stopped (d : Document)

namespace Reading

def settle (d : Document) : List Container → Reading
  | [] => complete d
  | top :: stack => inside (top.add d :: stack) .separator

def stop (stack : List Container) : Reading := stopped (Container.abandon stack)

def value (stack : List Container) : Token → Reading
  | .openArray => inside (.array [] :: stack) .itemOrClose
  | .openObject => inside (.object [] :: stack) .keyOrClose
  | .leaf d => settle d stack
  | _ => stop stack

def key (stack : List Container) (token : Token) : Reading :=
  match stack, token with
  | .object members :: stack, .leaf (.string text) => inside (.member text members :: stack) .colon
  | stack, _ => stop stack

def separator (stack : List Container) (token : Token) : Reading :=
  match stack, token with
  | .array items :: stack, .closeArray => settle (.array items.reverse true) stack
  | .object members :: stack, .closeObject => settle (.object members.reverse true) stack
  | .array items :: stack, .comma => inside (.array items :: stack) .value
  | .object members :: stack, .comma => inside (.object members :: stack) .key
  | stack, _ => stop stack

def step : Reading → Token → Reading
  | complete d, _ => stopped d
  | stopped d, _ => stopped d
  | inside stack .value, token => value stack token
  | inside stack .itemOrClose, .closeArray => separator stack .closeArray
  | inside stack .itemOrClose, token => value stack token
  | inside stack .key, token => key stack token
  | inside stack .keyOrClose, .closeObject => separator stack .closeObject
  | inside stack .keyOrClose, token => key stack token
  | inside stack .colon, .colon => inside stack .value
  | inside stack .colon, _ => stop stack
  | inside stack .separator, token => separator stack token

def result : Reading → Document × Bool
  | complete d => (d, true)
  | stopped d => (d, false)
  | inside stack _ => (Container.abandon stack, false)

end Reading

def ofTokens (tokens : List Token) : Document × Bool :=
  (tokens.foldl Reading.step (.inside [] .value)).result

/--
The document at the start of a text, and whether nothing but blanks follows it.
-/
def read (text : String) : Document × Bool := ofTokens (Token.ofChars text.toList)

end Document

end FormLogic
