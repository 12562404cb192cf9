import FormLogic.Catalogue.Basic

/-!
This module contains what can be asked of a catalogue, and the answers. A request that fails leaves
the catalogue as it is.
-/

namespace FormLogic.Catalogue

inductive Request where
  | load (f : Field)
  | loadAll (fields : List Field)
  | loadText (text : String)
  | loadListText (text : String)
  | update (f : Field)
  | delete (name : String)
  | clear
  | get (name : String)
  | contains (name : String)
  | names
  | revisions
  | evaluate (name : String) (ctx : Context)
  | evaluateAll (ctx : Context)
  | stats
  | size

inductive Answer where
  | done
  | name (name : String)
  | names (names : List String)
  | truth (b : Bool)
  | revision (r : Option Revision)
  | revisions (rs : List Revision)
  | evaluation (e : Evaluation)
  | evaluations (es : List Evaluation)
  | stats (s : Stats)
  | size (n : Nat) (isEmpty : Bool)

def perform (c : Catalogue) : Request → Catalogue × Except Error Answer
  | .load f => (c.load f, .ok .done)
  | .loadAll fields => (c.loadAll fields, .ok (.names (fields.map (·.name))))
  | .loadText text =>
    match Field.ofText text with
    | .ok f => (c.load f, .ok (.name f.name))
    | .error fault => (c, .error (.unreadable fault))
  | .loadListText text =>
    match Field.listOfText text with
    | .ok fields => (c.loadAll fields, .ok (.names (fields.map (·.name))))
    | .error fault => (c, .error (.unreadable fault))
  | .update f =>
    if c.contains f.name then (c.load f, .ok .done) else (c, .error (.unknownField f.name))
  | .delete name =>
    if c.contains name then (c.delete name, .ok .done) else (c, .error (.unknownField name))
  | .clear => (c.clear, .ok .done)
  | .get name => (c, .ok (.revision (c.get? name)))
  | .contains name => (c, .ok (.truth (c.contains name)))
  | .names => (c, .ok (.names c.names))
  | .revisions => (c, .ok (.revisions c.revisions))
  | .evaluate name ctx =>
    match c.get? name with
    | some r => (c, .ok (.evaluation (c.evaluate ctx r)))
    | none => (c, .error (.unknownField name))
  | .evaluateAll ctx => (c, .ok (.evaluations (c.evaluateAll ctx)))
  | .stats => (c, .ok (.stats c.stats))
  | .size => (c, .ok (.size c.size c.isEmpty))

def performAll (c : Catalogue) : List Request → Catalogue × List (Except Error Answer)
  | [] => (c, [])
  | request :: requests =>
    let (c, answer) := c.perform request
    let (c, answers) := c.performAll requests
    (c, answer :: answers)

end FormLogic.Catalogue
