import Std.Data.TreeMap
import FormLogic.Error
import FormLogic.Evaluation
import FormLogic.Revision

/-!
This module contains catalogues of fields. Fields are found by name and listed in the order in which
their names came in: a field that replaces another one of its name takes its place, and a name that
was deleted comes in anew.
-/

namespace FormLogic

/--
A stored field with the place of its name in the order.
-/
structure Catalogue.Entry where
  revision : Revision
  place : Nat

/--
Neither counter has a bound. Both grow by at most one with every field that comes in, so in machine
words they would wrap around only after `2 ^ 64` fields.
-/
structure Catalogue where
  entries : Std.TreeMap String Catalogue.Entry
  lastRevision : Nat
  /-- The place of the next name that comes in. -/
  nextPlace : Nat
  evaluator : Evaluator

structure Catalogue.Stats where
  fields : Nat
  conditions : Nat
  validations : Nat
  doubtful : Nat

namespace Catalogue

def empty (evaluator : Evaluator) : Catalogue := ⟨∅, 0, 0, evaluator⟩

def size (c : Catalogue) : Nat := c.entries.size

def isEmpty (c : Catalogue) : Bool := c.entries.isEmpty

def contains (c : Catalogue) (name : String) : Bool := c.entries.contains name

def get? (c : Catalogue) (name : String) : Option Revision := (c.entries[name]?).map (·.revision)

/--
The stored fields in the order of their names' coming in.
-/
def revisions (c : Catalogue) : List Revision :=
  (c.entries.values.mergeSort fun a b => a.place ≤ b.place).map (·.revision)

def names (c : Catalogue) : List String := c.revisions.map (·.name)

def load (c : Catalogue) (f : Field) : Catalogue :=
  let revision := Revision.next c.lastRevision f
  match c.entries[f.name]? with
  | some entry =>
    -- The name keeps its place.
    { c with
      entries := c.entries.insert f.name ⟨revision, entry.place⟩
      lastRevision := revision.number }
  | none =>
    { c with
      entries := c.entries.insert f.name ⟨revision, c.nextPlace⟩
      lastRevision := revision.number
      nextPlace := c.nextPlace + 1 }

def loadAll (c : Catalogue) (fields : List Field) : Catalogue := fields.foldl load c

def delete (c : Catalogue) (name : String) : Catalogue := { c with entries := c.entries.erase name }

def clear (c : Catalogue) : Catalogue := { c with entries := ∅ }

def evaluate (c : Catalogue) (ctx : Context) (r : Revision) : Evaluation :=
  (c.evaluator.evaluate ctx r.field).1

def evaluateAll (c : Catalogue) (ctx : Context) : List Evaluation :=
  c.revisions.map (c.evaluate ctx)

def stats (c : Catalogue) : Stats :=
  let fields := c.entries.values.map (·.revision)
  { fields := c.size
    conditions := (fields.flatMap (·.field.conditions)).length
    validations := (fields.flatMap (·.field.rules)).length
    doubtful := fields.countP (·.isDoubtful) }

end Catalogue

end FormLogic
