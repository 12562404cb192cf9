import FormLogic.Metric
import FormLogic.Proofs.Evaluation.Meaning
import FormLogic.Proofs.Logic.Tree
import FormLogic.Warning

/-!
This module contains what is told about the evaluation of fields: which warnings are given, and what
is counted. Whether an expression is malformed can be told from its tokens alone, but which
expressions are examined depends on the leaves and on the composites before them. Every one that is
examined and malformed is warned about and counted once. What its warning says is written out here.
-/

namespace FormLogic

namespace LogicToken

/--
The first operator for which the tokens before it leave too few values.
-/
def lacking? (tokens : List LogicToken) : Option MalformedLogic :=
  (tokens.zipIdx.find? fun entry =>
    !entry.1.isOperand && height (tokens.take entry.2) < entry.1.arity).map fun entry =>
      ⟨entry.1, entry.2 + 1⟩

/--
The warning about a malformed expression: which operator lacks operands, where it stands, and what
all tokens are.
-/
def warning? (logic : List LogicToken) : Option Warning :=
  (lacking? logic).map fun e =>
    ⟨"Invalid logic stack",
      [("error", "逻辑表达式格式错误: 第 " ++ e.position.repr ++ " 个记号 " ++ e.operator.name
          ++ " 缺少操作数"),
        ("tokens", " ".intercalate (logic.map name))]⟩

def events (logic : List LogicToken) : List Event :=
  ((lacking? logic).map (.malformed · logic)).toList

theorem lacking?_eq_some {tokens : List LogicToken} {position : Nat} {token : LogicToken}
    (h : LacksFirstAt tokens position token)
    : lacking? tokens = some ⟨token, position + 1⟩ := by
  have ⟨⟨htoken, hoperand, hheight⟩, hfirst⟩ := h
  rw [List.getElem?_eq_some_iff] at htoken
  rcases htoken with ⟨hlt, htoken⟩
  unfold lacking?
  rw [Option.map_eq_some_iff]
  refine ⟨(token, position), ?_, rfl⟩
  rw [List.find?_eq_some_iff_getElem]
  refine ⟨by simp [hoperand, hheight], position, by simpa using hlt, by simp [htoken], ?_⟩
  intro earlier hearlier
  have hnot := hfirst earlier hearlier (tokens[earlier])
  simp only [LacksAt, List.getElem?_eq_getElem (Nat.lt_trans hearlier hlt), true_and] at hnot
  simpa [Decidable.or_iff_not_imp_left] using hnot

theorem lacking?_eq_none {tokens : List LogicToken}
    (h : ∀ position token, ¬LacksAt tokens position token) : lacking? tokens = none := by
  unfold lacking?
  rw [Option.map_eq_none_iff, List.find?_eq_none]
  intro entry hentry hlacks
  rw [List.mem_zipIdx_iff_getElem?] at hentry
  apply h entry.2 entry.1
  refine ⟨hentry, ?_⟩
  simpa using hlacks

theorem eval_eq_error_iff (values : String → Bool) (tokens : List LogicToken) (e : MalformedLogic)
    : eval values tokens = .error e ↔ lacking? tokens = some e := by
  rw [LogicTree.eval_eq_map_read]
  cases hread : LogicTree.read 1 tokens [] with
  | error other =>
    have ⟨position, hposition, hlacks⟩ :=
      LogicTree.IsReading.nil.lacksFirstAt_of_read_eq_error hread
    rw [List.nil_append] at hlacks
    rw [lacking?_eq_some hlacks, ← hposition]
    simp [Except.map]
  | ok result =>
    have hreading : LogicTree.IsReading tokens result := LogicTree.IsReading.nil.of_read_eq_ok hread
    rw [lacking?_eq_none hreading.not_lacksAt]
    simp [Except.map]

theorem filterMap_warning?_flatMap_events (logics : List (List LogicToken))
    : (logics.flatMap events).filterMap (·.warning?) = logics.filterMap warning? := by
  rw [List.filterMap_flatMap]
  unfold events warning?
  induction logics with
  | nil => rfl
  | cons logic logics ih =>
    rw [List.flatMap_cons, List.filterMap_cons, ih]
    cases lacking? logic <;> rfl

end LogicToken

namespace Metric

theorem count_append (m : Metric) (events more : List Event)
    : m.count (events ++ more) = m.count events + m.count more := by
  apply List.countP_append

theorem count_evaluated (m : Metric) (scope : Scope)
    : m.count [.evaluated scope]
        =
      if m = evaluations scope ∨ m = durations scope then 1 else 0 := by
  simp [count, counts, List.countP_singleton]

theorem count_malformed (events : List Event)
    : malformed.count events = (events.filterMap (·.warning?)).length := by
  unfold count
  induction events with
  | nil => rfl
  | cons event events ih =>
    rw [List.countP_cons, ih, List.filterMap_cons]
    cases event <;> rfl

theorem count_flatMap_events {m : Metric} (h : m ≠ malformed) (logics : List (List LogicToken))
    : m.count (logics.flatMap LogicToken.events) = 0 := by
  unfold count
  rw [List.countP_eq_zero]
  intro event hevent
  rw [List.mem_flatMap] at hevent
  rcases hevent with ⟨logic, _, hevent⟩
  unfold LogicToken.events at hevent
  simp only [Option.mem_toList, Option.map_eq_some_iff] at hevent
  rcases hevent with ⟨error, _, rfl⟩
  simpa [counts] using h

end Metric

theorem take_findIdx_cons {α : Type} (p : α → Bool) (x : α) (xs : List α)
    : (x :: xs).take ((x :: xs).findIdx p + 1)
        =
      if p x then [x] else x :: xs.take (xs.findIdx p + 1) := by
  rw [List.findIdx_cons]
  cases p x with
  | true => simp
  | false => simp

namespace Composite

def untilComplaint (values : String → Bool) (rules : List Composite) : List Composite :=
  rules.take (rules.findIdx (·.complains values) + 1)

theorem untilComplaint_cons (values : String → Bool) (rule : Composite) (rules : List Composite)
    : untilComplaint values (rule :: rules)
        =
      if rule.complains values then [rule] else rule :: untilComplaint values rules := by
  apply take_findIdx_cons

end Composite

namespace Field

/--
The composites that are come to, which is none of them if a leaf complains.
-/
def examined (f : Field) (absent : Bool) (ctx : Context) : List Composite :=
  if f.leaves.any (·.complains ctx) then []
  else Composite.untilComplaint (fun id => (f.leafResult? ctx id).getD absent) f.composites

end Field

namespace Evaluator

variable (e : Evaluator) (ctx : Context)

theorem judge_snd (outcomes : Outcomes) (logic : List LogicToken)
    : (e.judge outcomes logic).2 = LogicToken.events logic := by
  have hiff := LogicToken.eval_eq_error_iff (outcomes.valueOf e.absent) logic
  unfold judge LogicToken.events
  cases hlacking : LogicToken.lacking? logic with
  | some error =>
    rw [(hiff error).mpr hlacking]
    rfl
  | none =>
    cases heval : LogicToken.eval (outcomes.valueOf e.absent) logic with
    | ok value => rfl
    | error error =>
      rw [hiff, hlacking] at heval
      contradiction

theorem visibility_events (f : Field)
    : (e.visibility ctx f).events = LogicToken.events f.visibility := by
  apply judge_snd

theorem composites_events (outcomes : Outcomes) (rules : List Validation)
    : (e.composites outcomes rules).events
        =
      (Composite.untilComplaint (outcomes.valueOf e.absent)
        (rules.filterMap (·.composite?))).flatMap (LogicToken.events ·.logic) := by
  induction rules with
  | nil => rfl
  | cons rule rules ih =>
    cases rule with
    | leaf rule =>
      unfold composites
      rw [ih]
      rfl
    | composite rule =>
      have hfst := e.judge_fst outcomes rule.logic
      have hsnd := e.judge_snd outcomes rule.logic
      have hcons : (Validation.composite rule :: rules).filterMap (·.composite?)
          = rule :: rules.filterMap (·.composite?) := rfl
      unfold composites
      dsimp only
      rw [hfst, hsnd, hcons, Composite.untilComplaint_cons]
      unfold Composite.complains
      split
      . simp
      . rw [List.flatMap_cons, ih]

theorem validation_events (f : Field)
    : (e.validation ctx f).events
        =
      (f.examined e.absent ctx).flatMap (LogicToken.events ·.logic) := by
  have hfst := leaves_fst ctx f.rules .empty
  unfold validation Field.examined Field.leaves
  rw [← List.isSome_find?]
  generalize leaves ctx f.rules .empty = checked at hfst ⊢
  rcases checked with ⟨outcomes, steps⟩
  dsimp at hfst
  cases h : (f.rules.filterMap (·.leaf?)).find? (·.complains ctx) with
  | some rule =>
    rw [h] at hfst
    rw [hfst]
    rfl
  | none =>
    rw [h] at hfst
    rw [hfst]
    dsimp
    rw [composites_events, Outcomes.valueOf_recordAll]
    rfl

end Evaluator

structure Call where
  tracing : Bool
  scope : Scope
  ctx : Context
  field : Field

namespace Call

def events (c : Call) : List Event :=
  match c.scope with
  | .visibility => ((Evaluator.ofTracing c.tracing).isVisible c.ctx c.field).2
  | .validation => ((Evaluator.ofTracing c.tracing).validate c.ctx c.field).2
  | .full => ((Evaluator.ofTracing c.tracing).evaluate c.ctx c.field).2

def examined (c : Call) : List (List LogicToken) :=
  let composites := (c.field.examined false c.ctx).map (·.logic)
  match c.scope with
  | .visibility => [c.field.visibility]
  | .validation => composites
  | .full => c.field.visibility :: composites

def warnings (c : Call) : List Warning := c.examined.filterMap LogicToken.warning?

def growth (c : Call) : Metric → Nat
  | .evaluations scope => if scope = c.scope then 1 else 0
  | .durations scope => if scope = c.scope then 1 else 0
  | .malformed => c.warnings.length

theorem events_eq (c : Call)
    : c.events = c.examined.flatMap LogicToken.events ++ [.evaluated c.scope] := by
  have hvisibility := (Evaluator.ofTracing c.tracing).visibility_events c.ctx c.field
  have hvalidation : ((Evaluator.ofTracing c.tracing).validation c.ctx c.field).events
      = (c.field.examined false c.ctx).flatMap (LogicToken.events ·.logic) := by
    apply Evaluator.validation_events
  unfold events examined
  cases c.scope with
  | visibility => simp [Evaluator.isVisible, hvisibility]
  | validation =>
    simp [Evaluator.validate, hvalidation, List.flatMap_map]
  | full =>
    simp [Evaluator.evaluate, hvisibility, hvalidation, List.flatMap_map]

theorem warnings_eq (c : Call) : c.events.filterMap (·.warning?) = c.warnings := by
  rw [events_eq, List.filterMap_append, LogicToken.filterMap_warning?_flatMap_events]
  simp [warnings, Event.warning?]

theorem count_of_ne_malformed (c : Call) {m : Metric} (h : m ≠ .malformed)
    : m.count c.events
        =
      if m = .evaluations c.scope ∨ m = .durations c.scope then 1 else 0 := by
  rw [events_eq, Metric.count_append, Metric.count_flatMap_events h, Metric.count_evaluated]
  apply Nat.zero_add

theorem count_eq (c : Call) (m : Metric) : m.count c.events = c.growth m := by
  cases m with
  | malformed => rw [Metric.count_malformed, warnings_eq, growth]
  | evaluations scope =>
    rw [count_of_ne_malformed c (by simp)]
    simp [growth]
  | durations scope =>
    rw [count_of_ne_malformed c (by simp)]
    simp [growth]

end Call

structure Tally where
  warnings : List Warning
  totals : Metric → Nat

namespace Tally

def note (t : Tally) (event : Event) : Tally where
  warnings := t.warnings ++ event.warning?.toList
  totals m := if m.counts event then t.totals m + 1 else t.totals m

def after (t : Tally) (calls : List Call) : Tally :=
  calls.foldl (fun t c => c.events.foldl note t) t

theorem warnings_foldl_note (events : List Event) (t : Tally)
    : (events.foldl note t).warnings = t.warnings ++ events.filterMap (·.warning?) := by
  induction events generalizing t with
  | nil => simp
  | cons event events ih =>
    rw [List.foldl_cons, ih, note, List.filterMap_cons]
    cases event.warning? <;> simp

theorem totals_foldl_note (m : Metric) (events : List Event) (t : Tally)
    : (events.foldl note t).totals m = t.totals m + m.count events := by
  unfold Metric.count
  induction events generalizing t with
  | nil => rfl
  | cons event events ih =>
    rw [List.foldl_cons, ih, note, List.countP_cons]
    dsimp
    split
    . omega
    . rfl

theorem warnings_after (calls : List Call) (t : Tally)
    : (t.after calls).warnings = t.warnings ++ calls.flatMap (·.warnings) := by
  unfold after
  induction calls generalizing t with
  | nil => simp
  | cons c calls ih =>
    rw [List.foldl_cons, ih, warnings_foldl_note, Call.warnings_eq, List.flatMap_cons]
    apply List.append_assoc

theorem totals_after (m : Metric) (calls : List Call) (t : Tally)
    : (t.after calls).totals m = calls.foldl (fun total c => total + c.growth m) (t.totals m) := by
  unfold after
  induction calls generalizing t with
  | nil => rfl
  | cons c calls ih =>
    rw [List.foldl_cons, List.foldl_cons, ih, totals_foldl_note, Call.count_eq]

theorem warnings_totals_of_calls
    : (∀ c : Call,
        c.events.filterMap (·.warning?) = c.warnings ∧ ∀ m, m.count c.events = c.growth m)
        ∧
      ∀ (t : Tally) (calls : List Call),
        (t.after calls).warnings = t.warnings ++ calls.flatMap (·.warnings)
          ∧
        ∀ m, (t.after calls).totals m
            =
          calls.foldl (fun total c => total + c.growth m) (t.totals m) := by
  constructor
  . intro c
    exact ⟨c.warnings_eq, c.count_eq⟩
  . intro t calls
    constructor
    . apply warnings_after
    . intro m
      apply totals_after

theorem warnings_totals_of_calls_up_to_complaint
    : let composite := fun id logic message => Validation.composite ⟨id, logic, message⟩
      let f : Field := ⟨"f", "", "", [], [.operand "a", .or],
        some [composite "silent" [.operand "l", .and] "", composite "loud" [.not] "stop",
          composite "later" [.or] "never", .leaf ⟨"l", "v", .equals, none, "no"⟩]⟩
      let passing : Context := ⟨.null⟩
      let failing : Context := ⟨.object [("v", .null)]⟩
      let warning := fun error tokens =>
        (⟨"Invalid logic stack", [("error", error), ("tokens", tokens)]⟩ : Warning)
      let calls : List Call := [⟨true, .full, passing, f⟩, ⟨false, .validation, failing, f⟩,
        ⟨false, .visibility, failing, f⟩, ⟨false, .validation, passing, f⟩]
      let t := (Tally.mk [] fun _ => 0).after calls
      t.warnings
          =
        [warning "逻辑表达式格式错误: 第 2 个记号 OR 缺少操作数" "a OR",
          warning "逻辑表达式格式错误: 第 2 个记号 AND 缺少操作数" "l AND",
          warning "逻辑表达式格式错误: 第 1 个记号 NOT 缺少操作数" "NOT",
          warning "逻辑表达式格式错误: 第 2 个记号 OR 缺少操作数" "a OR",
          warning "逻辑表达式格式错误: 第 2 个记号 AND 缺少操作数" "l AND",
          warning "逻辑表达式格式错误: 第 1 个记号 NOT 缺少操作数" "NOT"]
        ∧ t.totals .malformed = 6
        ∧ t.totals (.evaluations .full) = 1
        ∧ t.totals (.durations .full) = 1
        ∧ t.totals (.evaluations .validation) = 2
        ∧ t.totals (.evaluations .visibility) = 1 := by
  intro composite f passing failing warning calls t
  have ⟨hwarnings, htotals⟩ := warnings_totals_of_calls.2 ⟨[], fun _ => 0⟩ calls
  refine ⟨?_, htotals _, htotals _, htotals _, htotals _, htotals _⟩
  rw [hwarnings]
  decide

end Tally

end FormLogic
