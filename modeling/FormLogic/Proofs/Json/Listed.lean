import FormLogic.Json.Decode
import Mathlib.Data.List.Forall2

/-!
This module contains what reading a list comes to: every item is read by itself, and the list is
read if all of its items are.
-/

namespace FormLogic.Document

section Except

variable {ε α β : Type}

theorem bind_eq_ok_iff (e : Except ε α) (f : α → Except ε β) (b : β)
    : (e >>= f) = .ok b ↔ ∃ a, e = .ok a ∧ f a = .ok b := by
  cases e <;> simp [bind, Except.bind]

theorem mapError_eq_ok_iff {ε' : Type} (e : Except ε α) (f : ε → ε') (a : α)
    : e.mapError f = .ok a ↔ e = .ok a := by
  cases e <;> simp [Except.mapError]

theorem mapM_eq_ok_iff (f : α → Except ε β) (items : List α) (result : List β)
    : items.mapM f = .ok result
        ↔
      List.Forall₂ (fun item value => f item = .ok value) items result := by
  induction items generalizing result with
  | nil => simp [pure, Except.pure, eq_comm]
  | cons item items ih =>
    rw [List.mapM_cons, List.forall₂_cons_left_iff]
    simp only [bind_eq_ok_iff, pure, Except.pure, Except.ok.injEq, ih]
    constructor
    . intro h
      rcases h with ⟨value, hvalue, values, hvalues, heq⟩
      exact ⟨value, values, hvalue, hvalues, heq.symm⟩
    . intro h
      rcases h with ⟨value, values, hvalue, hvalues, heq⟩
      exact ⟨value, hvalue, values, hvalues, heq.symm⟩

theorem exists_mapM_eq_ok_iff (f : α → Except ε β) (items : List α)
    : (∃ result, items.mapM f = .ok result) ↔ ∀ item ∈ items, ∃ value, f item = .ok value := by
  simp only [mapM_eq_ok_iff]
  induction items with
  | nil => simp
  | cons item items ih =>
    rw [List.forall_mem_cons, ← ih]
    simp only [List.forall₂_cons_left_iff]
    constructor
    . intro h
      rcases h with ⟨_, value, values, hvalue, hvalues, _⟩
      exact ⟨⟨value, hvalue⟩, ⟨values, hvalues⟩⟩
    . intro h
      rcases h with ⟨⟨value, hvalue⟩, ⟨values, hvalues⟩⟩
      exact ⟨value :: values, value, values, hvalue, hvalues, rfl⟩

end Except

theorem decode_eq_ok_iff {α : Type} (read : Nat → Document → Except Fault α) (text : String)
    (value : α)
    : decode read text = .ok value
        ↔
      ∃ d, Document.read text = (d, true) ∧ read maxDepth d = .ok value := by
  unfold decode
  rcases Document.read text with ⟨d, alone⟩
  dsimp
  rw [bind_eq_ok_iff]
  cases alone <;> simp

theorem asList_eq_ok_iff {α : Type} (item : Nat → Document → Except Fault α) (room : Nat)
    (d : Document) (result : List α)
    : asList item (room + 1) d = .ok result
        ↔
      ∃ items, d = .array items true ∧ items.mapM (item room) = .ok result := by
  cases d with
  | array items closed =>
    unfold asList
    dsimp
    rw [bind_eq_ok_iff]
    cases closed <;> simp
  | _ => simp [asList]

end FormLogic.Document
