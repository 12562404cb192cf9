import FormLogic.Logic.Postfix

/-!
This module contains boolean expressions as trees, and the reading of postfix expressions as trees.
Tokens are read on a stack of trees in the way in which they are evaluated on a stack of truth
values. How many of them are on the stack can be told from the tokens alone. Reading fails at the
first operator for which the tokens before it leave too few, and otherwise its result is the only
list of trees with these tokens.
-/

namespace FormLogic

namespace LogicToken

def height (tokens : List LogicToken) : Int :=
  tokens.countP (·.isOperand) - (tokens.count .and + tokens.count .or)

/--
The token at the position is an operator for which the tokens before it leave too few values.
-/
def LacksAt (tokens : List LogicToken) (position : Nat) (token : LogicToken) : Prop :=
  tokens[position]? = some token ∧ token.isOperand = false
    ∧ height (tokens.take position) < token.arity

def LacksFirstAt (tokens : List LogicToken) (position : Nat) (token : LogicToken) : Prop :=
  LacksAt tokens position token
    ∧ ∀ earlier < position, ∀ other, ¬LacksAt tokens earlier other

theorem height_append (as bs : List LogicToken) : height (as ++ bs) = height as + height bs := by
  simp only [height, List.countP_append, List.count_append]
  omega

theorem height_singleton (token : LogicToken) : height [token] = 1 - token.arity := by
  cases token <;> rfl

theorem lacksAt_append_left {tokens : List LogicToken} {position : Nat} (rest : List LogicToken)
    (token : LogicToken) (h : position < tokens.length)
    : LacksAt (tokens ++ rest) position token ↔ LacksAt tokens position token := by
  unfold LacksAt
  rw [List.getElem?_append_left h]
  rw [List.take_append_of_le_length (by omega)]

theorem lacksAt_length (tokens rest : List LogicToken) (last token : LogicToken)
    : LacksAt (tokens ++ last :: rest) tokens.length token
        ↔
      last = token ∧ token.isOperand = false ∧ height tokens < token.arity := by
  unfold LacksAt
  rw [List.getElem?_append_right (Nat.le_refl _)]
  simp

theorem LacksAt.lt_length {tokens : List LogicToken} {position : Nat} {token : LogicToken}
    (h : LacksAt tokens position token) : position < tokens.length := by
  rcases h with ⟨h, -⟩
  rw [List.getElem?_eq_some_iff] at h
  exact h.1

end LogicToken

inductive LogicTree where
  | operand (id : String)
  | not (tree : LogicTree)
  | and (lhs rhs : LogicTree)
  | or (lhs rhs : LogicTree)

namespace LogicTree

open LogicToken (LacksAt LacksFirstAt height)

def tokens : LogicTree → List LogicToken
  | operand id => [.operand id]
  | not tree => tree.tokens ++ [.not]
  | and lhs rhs => lhs.tokens ++ rhs.tokens ++ [.and]
  | or lhs rhs => lhs.tokens ++ rhs.tokens ++ [.or]

def eval (values : String → Bool) : LogicTree → Bool
  | operand id => values id
  | not tree => !tree.eval values
  | and lhs rhs => lhs.eval values && rhs.eval values
  | or lhs rhs => lhs.eval values || rhs.eval values

def lastValue (values : String → Bool) (forest : List LogicTree) : Bool :=
  (forest.getLast?.map (eval values)).getD true

def assemble? (token : LogicToken) (stack : List LogicTree) : Option (List LogicTree) :=
  -- The right operand of an operator is on top.
  match token, stack with
  | .operand id, stack => some (operand id :: stack)
  | .not, tree :: stack => some (not tree :: stack)
  | .and, rhs :: lhs :: stack => some (and lhs rhs :: stack)
  | .or, rhs :: lhs :: stack => some (or lhs rhs :: stack)
  | _, _ => none

def read (position : Nat) :
    List LogicToken → List LogicTree → Except MalformedLogic (List LogicTree)
  | [], stack => .ok stack
  | token :: tokens, stack =>
    match assemble? token stack with
    | some stack => read (position + 1) tokens stack
    | none => .error ⟨token, position⟩

structure IsReading (tokens : List LogicToken) (stack : List LogicTree) : Prop where
  length_eq : (stack.length : Int) = height tokens
  tokens_eq : stack.reverse.flatMap LogicTree.tokens = tokens
  not_lacksAt : ∀ position token, ¬LacksAt tokens position token

theorem assemble?_eq_none {token : LogicToken} {stack : List LogicTree}
    (h : assemble? token stack = none)
    : token.isOperand = false ∧ stack.length < token.arity := by
  cases token with
  | operand id => simp [assemble?] at h
  | not =>
    cases stack with
    | nil => simp [LogicToken.isOperand, LogicToken.arity]
    | cons tree stack => simp [assemble?] at h
  | and =>
    rcases stack with _ | ⟨rhs, _ | ⟨lhs, stack⟩⟩
    . simp [LogicToken.isOperand, LogicToken.arity]
    . simp [LogicToken.isOperand, LogicToken.arity]
    . simp [assemble?] at h
  | or =>
    rcases stack with _ | ⟨rhs, _ | ⟨lhs, stack⟩⟩
    . simp [LogicToken.isOperand, LogicToken.arity]
    . simp [LogicToken.isOperand, LogicToken.arity]
    . simp [assemble?] at h

theorem assemble?_eq_some {token : LogicToken} {stack result : List LogicTree}
    (h : assemble? token stack = some result)
    : token.arity ≤ stack.length
        ∧ result.length + token.arity = stack.length + 1
        ∧ result.reverse.flatMap tokens = stack.reverse.flatMap tokens ++ [token] := by
  unfold assemble? at h
  split at h
  all_goals
    cases h
  all_goals
    simp [tokens, LogicToken.arity]

namespace IsReading

theorem nil : IsReading [] [] where
  length_eq := rfl
  tokens_eq := rfl
  not_lacksAt := by
    intro position token h
    have := h.lt_length
    simp at this

variable {done : List LogicToken} {stack : List LogicTree}

theorem append_singleton {token : LogicToken} {result : List LogicTree} (h : IsReading done stack)
    (hassemble : assemble? token stack = some result) : IsReading (done ++ [token]) result := by
  have ⟨harity, hlength, htokens⟩ := assemble?_eq_some hassemble
  have hheight := h.length_eq
  constructor
  . rw [LogicToken.height_append, LogicToken.height_singleton]
    omega
  . rw [htokens, h.tokens_eq]
  . -- The last token found enough operands, or there would be no result.
    intro position other hlacks
    have hposition := hlacks.lt_length
    rw [List.length_append, List.length_singleton] at hposition
    cases Nat.lt_or_eq_of_le (Nat.le_of_lt_succ hposition) with
    | inl hlt =>
      rw [LogicToken.lacksAt_append_left _ _ hlt] at hlacks
      exact h.not_lacksAt position other hlacks
    | inr heq =>
      rw [heq, LogicToken.lacksAt_length] at hlacks
      rcases hlacks with ⟨heq, _, hlt⟩
      subst heq
      omega

theorem lacksFirstAt {token : LogicToken} (h : IsReading done stack)
    (hassemble : assemble? token stack = none) (rest : List LogicToken)
    : LacksFirstAt (done ++ token :: rest) done.length token := by
  have ⟨hoperand, hlength⟩ := assemble?_eq_none hassemble
  have hheight := h.length_eq
  constructor
  . rw [LogicToken.lacksAt_length]
    refine ⟨rfl, hoperand, ?_⟩
    omega
  . intro earlier hearlier other
    rw [LogicToken.lacksAt_append_left _ _ hearlier]
    apply h.not_lacksAt

theorem of_read_eq_ok {rest : List LogicToken} {result : List LogicTree} (h : IsReading done stack)
    (hread : read (done.length + 1) rest stack = .ok result) : IsReading (done ++ rest) result := by
  -- Each token that is read moves from those that remain to those that are done.
  induction rest generalizing done stack with
  | nil =>
    simp only [read, Except.ok.injEq] at hread
    subst hread
    simpa using h
  | cons token rest ih =>
    unfold read at hread
    split at hread
    . next hassemble =>
      have := ih (h.append_singleton hassemble) (by simpa using hread)
      simpa using this
    . simp at hread

theorem lacksFirstAt_of_read_eq_error {rest : List LogicToken} {e : MalformedLogic}
    (h : IsReading done stack) (hread : read (done.length + 1) rest stack = .error e)
    : ∃ position, e.position = position + 1
        ∧ LacksFirstAt (done ++ rest) position e.operator := by
  induction rest generalizing done stack with
  | nil => simp [read] at hread
  | cons token rest ih =>
    unfold read at hread
    split at hread
    . next hassemble =>
      have := ih (h.append_singleton hassemble) (by simpa using hread)
      simpa using this
    . next hassemble =>
      simp only [Except.error.injEq] at hread
      subst hread
      refine ⟨done.length, rfl, ?_⟩
      apply h.lacksFirstAt hassemble

end IsReading

theorem read_tokens (tree : LogicTree) (position : Nat) (rest : List LogicToken)
    (stack : List LogicTree)
    : read position (tree.tokens ++ rest) stack
        =
      read (position + tree.tokens.length) rest (tree :: stack) := by
  -- What comes behind the left operand is the right one with its own rest.
  induction tree generalizing position rest stack with
  | operand id => simp [tokens, read, assemble?]
  | not tree ih => simp [tokens, read, assemble?, ih, Nat.add_assoc]
  | and lhs rhs lih rih => simp [tokens, read, assemble?, lih, rih, Nat.add_assoc]
  | or lhs rhs lih rih => simp [tokens, read, assemble?, lih, rih, Nat.add_assoc]

theorem read_flatMap_tokens (forest : List LogicTree) (position : Nat) (stack : List LogicTree)
    : read position (forest.flatMap tokens) stack = .ok (forest.reverse ++ stack) := by
  induction forest generalizing position stack with
  | nil => rfl
  | cons tree forest ih =>
    rw [List.flatMap_cons, read_tokens, ih]
    simp

theorem flatMap_tokens_injective {forest other : List LogicTree}
    (h : forest.flatMap tokens = other.flatMap tokens) : forest = other := by
  have : read 1 (forest.flatMap tokens) [] = read 1 (other.flatMap tokens) [] := by rw [h]
  simpa [read_flatMap_tokens] using this

theorem effect?_map_eval (values : String → Bool) (token : LogicToken) (stack : List LogicTree)
    : token.effect? values (stack.map (eval values))
        =
      (assemble? token stack).map (·.map (eval values)) := by
  cases token with
  | operand id => rfl
  | not => cases stack <;> rfl
  | and =>
    rcases stack with _ | ⟨rhs, _ | ⟨lhs, stack⟩⟩
    . rfl
    . rfl
    . simp [LogicToken.effect?, assemble?, eval, Bool.and_comm]
  | or =>
    rcases stack with _ | ⟨rhs, _ | ⟨lhs, stack⟩⟩
    . rfl
    . rfl
    . simp [LogicToken.effect?, assemble?, eval, Bool.or_comm]

theorem run_map_eval (values : String → Bool) (position : Nat) (tokens : List LogicToken)
    (stack : List LogicTree)
    : LogicToken.run values position tokens (stack.map (eval values))
        =
      (read position tokens stack).map fun result =>
        (result.head?.map (eval values)).getD true := by
  induction tokens generalizing position stack with
  | nil => simp [LogicToken.run, read, Except.map]
  | cons token tokens ih =>
    unfold LogicToken.run read
    rw [effect?_map_eval]
    cases assemble? token stack with
    | none => rfl
    | some result => exact ih (position + 1) result

theorem eval_eq_map_read (values : String → Bool) (tokens : List LogicToken)
    : LogicToken.eval values tokens
        =
      (read 1 tokens []).map fun result => lastValue values result.reverse := by
  unfold LogicToken.eval lastValue
  simpa using run_map_eval values 1 tokens []

theorem eval_eq_error_or_lastValue (tokens : List LogicToken)
    : (∃ position token,
        LacksFirstAt tokens position token
          ∧
        ∀ o : Outcomes,
          LogicToken.eval (o.valueOf false) tokens = .error ⟨token, position + 1⟩
            ∧ LogicToken.holds (o.valueOf false) tokens = false)
        ∨
      ((∀ position token, ¬LacksAt tokens position token)
        ∧
      ∃ forest : List LogicTree,
        (∀ other : List LogicTree, other.flatMap LogicTree.tokens = tokens ↔ other = forest)
          ∧
        ∀ o : Outcomes,
          LogicToken.eval (o.valueOf false) tokens
              =
            .ok (lastValue (fun id => (o.find? id).getD false) forest)
            ∧
          LogicToken.holds (o.valueOf false) tokens
              =
            lastValue (fun id => (o.find? id).getD false) forest) := by
  unfold LogicToken.holds
  cases hread : read 1 tokens [] with
  | error e =>
    have ⟨position, hposition, hlacks⟩ := IsReading.nil.lacksFirstAt_of_read_eq_error hread
    refine .inl ⟨position, e.operator, hlacks, ?_⟩
    -- Reading does not look at values, so it fails in the same place for all of them.
    intro o
    rw [eval_eq_map_read, hread, ← hposition]
    exact ⟨rfl, rfl⟩
  | ok result =>
    have hreading : IsReading tokens result := IsReading.nil.of_read_eq_ok hread
    refine .inr ⟨hreading.not_lacksAt, result.reverse, ?_, ?_⟩
    . intro other
      constructor
      . intro h
        apply flatMap_tokens_injective
        rw [h, hreading.tokens_eq]
      . intro h
        rw [h, hreading.tokens_eq]
    . intro o
      rw [eval_eq_map_read, hread]
      exact ⟨rfl, rfl⟩

end LogicTree

end FormLogic
