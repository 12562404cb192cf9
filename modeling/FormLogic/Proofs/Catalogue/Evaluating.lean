import FormLogic.Proofs.Catalogue.Families
import FormLogic.Proofs.Catalogue.Refinement
import Mathlib.Data.List.Forall2

/-!
This module contains the proof that evaluating all fields of a catalogue is evaluating them one by
one. All fields come from the entries in the order of their places, and one field is looked up by
its name, so it matters that every entry is found under the name of its own field.
-/

namespace FormLogic.Catalogue

theorem Refines.get?_name_of_mem {c : Catalogue} {l : Listing} (h : Refines c l) {r : Revision}
    (hr : r ∈ c.revisions) : c.get? r.name = some r := by
  rcases h with ⟨entries, hordered, _, _⟩
  rw [hordered.revisions_eq, List.mem_map] at hr
  rcases hr with ⟨⟨name, entry⟩, hentry, rfl⟩
  have hname : entry.revision.name = name := hordered.name_eq _ hentry
  rw [hordered.mem_iff] at hentry
  unfold get?
  rw [hname, hentry, Option.map_some]

theorem evaluator_performAll (c : Catalogue) (requests : List Request)
    : (c.performAll requests).1.evaluator = c.evaluator := by
  induction requests generalizing c with
  | nil => rfl
  | cons request requests ih => exact (ih (c.perform request).1).trans (c.evaluator_perform request)

theorem perform_evaluate_of_get? {c : Catalogue} {name : String} {r : Revision}
    (h : c.get? name = some r) (ctx : Context)
    : (c.perform (.evaluate name ctx)).2 = .ok (.evaluation (c.evaluate ctx r)) := by
  simp only [perform, h]

theorem perform_evaluate_eq_error_iff (c : Catalogue) (name : String) (ctx : Context)
    (error : Error)
    : (c.perform (.evaluate name ctx)).2 = .error error
        ↔
      c.contains name = false ∧ error = .unknownField name := by
  rw [contains_eq_isSome_get?]
  cases h : c.get? name with
  | none => simp [perform, h, eq_comm]
  | some r => simp [perform_evaluate_of_get? h]

theorem evaluateAll_forall₂_evaluate (evaluator : Evaluator) (requests : List Request)
    (ctx : Context)
    : let c := ((Catalogue.empty evaluator).performAll requests).1
      c.names.Nodup
        ∧ (∃ es, (c.perform (.evaluateAll ctx)).2 = .ok (.evaluations es)
            ∧ es.map (·.name) = c.names
            ∧ List.Forall₂ (fun name e =>
                (c.perform (.evaluate name ctx)).2 = .ok (.evaluation e)
                  ∧ ∃ r, c.get? name = some r ∧ e = (evaluator.evaluate ctx r.field).1)
                c.names es)
        ∧ ∀ name error,
            (c.perform (.evaluate name ctx)).2 = .error error
              ↔
            name ∉ c.names ∧ error = .unknownField name := by
  intro c
  have h : Refines c (Listing.empty.performAll requests) :=
    (Refines.empty evaluator).performAll requests
  have hevaluator : c.evaluator = evaluator := evaluator_performAll _ requests
  refine ⟨?_, ⟨c.evaluateAll ctx, rfl, ?_, ?_⟩, ?_⟩
  . rw [h.names_eq]
    exact h.nodup_names
  . unfold evaluateAll names
    rw [List.map_map]
    rfl
  . -- Names and evaluations both come from the listed revisions, so they are compared there.
    unfold evaluateAll names
    rw [List.forall₂_map_left_iff, List.forall₂_map_right_iff, List.forall₂_same]
    intro r hr
    have hget := h.get?_name_of_mem hr
    refine ⟨perform_evaluate_of_get? hget ctx, r, hget, ?_⟩
    rw [← hevaluator]
    rfl
  . intro name error
    rw [perform_evaluate_eq_error_iff, h.contains_eq, h.names_eq, decide_eq_false_iff_not]

end FormLogic.Catalogue
