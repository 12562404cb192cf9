import FormLogic.Catalogue.Request

/-!
This module contains sessions with several catalogues. The parts of a catalogue are kept kind by
kind, and a catalogue is reached through handles, which say where its parts are. A handle that is
cloned from another one has the same parts, and a new catalogue has parts of its own.
-/

namespace FormLogic

/--
The positions of the parts of a catalogue.
-/
structure Session.Handle where
  entries : Nat
  lastRevision : Nat
  nextPlace : Nat
  evaluator : Nat

structure Session where
  entries : List (Std.TreeMap String Catalogue.Entry)
  lastRevisions : List Nat
  nextPlaces : List Nat
  evaluators : List Evaluator
  handles : List Session.Handle

namespace Session

inductive Request where
  | toHandle (handle : Nat) (request : Catalogue.Request)
  | clone (handle : Nat)
  | create

inductive Answer where
  | answer (result : Except Error Catalogue.Answer)
  | handle (handle : Nat)
  | noSuchHandle

def empty : Session := ⟨[], [], [], [], []⟩

def catalogue? (s : Session) (h : Handle) : Option Catalogue := do
  let entries ← s.entries[h.entries]?
  let lastRevision ← s.lastRevisions[h.lastRevision]?
  let nextPlace ← s.nextPlaces[h.nextPlace]?
  let evaluator ← s.evaluators[h.evaluator]?
  return ⟨entries, lastRevision, nextPlace, evaluator⟩

/--
Write back the parts that requests can change. The evaluator is only ever read.
-/
def store (s : Session) (h : Handle) (c : Catalogue) : Session :=
  { s with
    entries := s.entries.set h.entries c.entries
    lastRevisions := s.lastRevisions.set h.lastRevision c.lastRevision
    nextPlaces := s.nextPlaces.set h.nextPlace c.nextPlace }

/--
The positions of the parts that come next.
-/
def nextHandle (s : Session) : Handle :=
  ⟨s.entries.length, s.lastRevisions.length, s.nextPlaces.length, s.evaluators.length⟩

def create (s : Session) (evaluator : Evaluator) : Session :=
  let c := Catalogue.empty evaluator
  { entries := s.entries ++ [c.entries]
    lastRevisions := s.lastRevisions ++ [c.lastRevision]
    nextPlaces := s.nextPlaces ++ [c.nextPlace]
    evaluators := s.evaluators ++ [c.evaluator]
    handles := s.handles ++ [s.nextHandle] }

def start (evaluator : Evaluator) : Session := empty.create evaluator

def perform (s : Session) : Request → Session × Answer
  | .toHandle handle request =>
    match s.handles[handle]? with
    | none => (s, .noSuchHandle)
    | some h =>
      match s.catalogue? h with
      | none => (s, .noSuchHandle)
      | some c =>
        let (c, result) := c.perform request
        (s.store h c, .answer result)
  | .clone handle =>
    match s.handles[handle]? with
    | none => (s, .noSuchHandle)
    | some h => ({ s with handles := s.handles ++ [h] }, .handle s.handles.length)
  | .create => (s.create (.ofTracing false), .handle s.handles.length)

def performAll (s : Session) : List Request → Session × List Answer
  | [] => (s, [])
  | request :: requests =>
    let (s, answer) := s.perform request
    let (s, answers) := s.performAll requests
    (s, answer :: answers)

end Session

end FormLogic
