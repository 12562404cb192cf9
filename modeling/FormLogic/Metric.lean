import FormLogic.Evaluation

/-!
This module contains the counts that are kept of events.
-/

namespace FormLogic

namespace Scope

def name : Scope → String
  | visibility => "visibility"
  | validation => "validation"
  | full => "full"

def all : List Scope := [visibility, validation, full]

end Scope

inductive Metric where
  | evaluations (scope : Scope)
  /-- The evaluations of one scope whose duration was noted. -/
  | durations (scope : Scope)
  | malformed
deriving DecidableEq

namespace Metric

def name : Metric → String
  | evaluations scope => "field_evaluations_total\x7bkind=" ++ scope.name ++ "\x7d"
  | durations scope => "field_evaluation_duration_seconds\x7bkind=" ++ scope.name ++ "\x7d"
  | malformed => "malformed_logic_total"

def all : List Metric := Scope.all.map evaluations ++ Scope.all.map durations ++ [malformed]

def counts (m : Metric) : Event → Bool
  | .evaluated scope => m = evaluations scope ∨ m = durations scope
  | .malformed _ _ => m = malformed

def count (m : Metric) (events : List Event) : Nat := events.countP m.counts

def touched (events : List Event) : List (Metric × Nat) :=
  (all.map fun m => (m, m.count events)).filter (·.2 != 0)

end Metric

end FormLogic
