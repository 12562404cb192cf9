import FormLogic.Proofs.Catalogue.Numbering
import FormLogic.Proofs.Evaluation.Reordering
import FormLogic.Proofs.Evaluation.Resolution

/-!
This module contains the proof that the statistics of a catalogue are those of its listed fields.
They are counted over the entries in no order of their own, with the diagnostics that were made when
the fields came in, so it matters that entries are only rearranged for the listing and that no
revision ever carries the diagnostics of another field.
-/

namespace FormLogic

namespace Field

/--
An id occurs twice among the conditions or among the rules, or an operand stands for no condition,
in the visibility logic, or no leaf, in composites.
-/
def IsDoubtful (f : Field) : Prop :=
  ¬(f.conditions.map (·.id)).Nodup
    ∨ ¬(f.rules.map (·.id)).Nodup
    ∨ (∃ id ∈ LogicToken.operands f.visibility, id ∉ f.conditions.map (·.id))
    ∨ ∃ rule ∈ f.composites, ∃ id ∈ LogicToken.operands rule.logic, id ∉ f.leaves.map (·.id)

instance (f : Field) : Decidable f.IsDoubtful := by
  unfold IsDoubtful
  infer_instance

theorem unresolvedOperands_ne_nil_iff (f : Field)
    : f.unresolvedOperands ≠ []
        ↔
      (∃ id ∈ LogicToken.operands f.visibility, id ∉ f.conditions.map (·.id))
        ∨
      ∃ rule ∈ f.composites, ∃ id ∈ LogicToken.operands rule.logic, id ∉ f.leaves.map (·.id) := by
  -- Which operands have no result is the same in every context.
  have hfirsts := f.isFirsts_unresolvedOperands ⟨.null⟩
  rw [Ne, List.eq_nil_iff_forall_not_mem, not_forall_not]
  simp only [hfirsts.mem_iff, mem_unanswered, find?_conditionOutcomes_eq_none,
    find?_leafOutcomes_eq_none, ← LogicToken.mem_operands, exists_or]
  constructor
  . rintro (h | ⟨id, rule, hrule, hid, hunknown⟩)
    . exact .inl h
    . exact .inr ⟨rule, hrule, id, hid, hunknown⟩
  . rintro (h | ⟨rule, hrule, id, hid, hunknown⟩)
    . exact .inl h
    . exact .inr ⟨id, rule, hrule, hid, hunknown⟩

end Field

theorem Revision.isDoubtful_next (last : Nat) (f : Field)
    : (next last f).isDoubtful = decide f.IsDoubtful := by
  have hduplicate : f.duplicateIds ≠ []
      ↔ ¬(f.conditions.map (·.id)).Nodup ∨ ¬(f.rules.map (·.id)).Nodup := by
    rw [Ne, f.duplicateIds_eq_nil_iff, not_and_or]
  rw [Bool.eq_iff_iff, decide_eq_true_iff]
  unfold isDoubtful Field.IsDoubtful
  rw [Bool.or_eq_true, Bool.not_eq_true', Bool.not_eq_true', List.isEmpty_eq_false_iff,
    List.isEmpty_eq_false_iff, ← or_assoc, ← hduplicate, ← f.unresolvedOperands_ne_nil_iff]
  rfl

namespace Catalogue

theorem revisions_perm (c : Catalogue)
    : c.revisions.Perm (c.entries.values.map (·.revision)) := by
  unfold revisions
  apply List.Perm.map
  apply List.mergeSort_perm

theorem length_names (c : Catalogue) : c.names.length = c.size := by
  unfold names size
  rw [List.length_map, c.revisions_perm.length_eq, List.length_map, values_eq_map_toList,
    List.length_map, Std.TreeMap.length_toList]

theorem foldl_add_length {α β : Type} (parts : α → List β) (as : List α) (total : Nat)
    : as.foldl (fun total a => total + (parts a).length) total
        =
      total + (as.flatMap parts).length := by
  induction as generalizing total with
  | nil => rfl
  | cons a as ih =>
    rw [List.foldl_cons, ih, List.flatMap_cons, List.length_append]
    omega

theorem length_flatMap_values {β : Type} (c : Catalogue) (parts : Revision → List β)
    : ((c.entries.values.map (·.revision)).flatMap parts).length
        =
      c.revisions.foldl (fun total r => total + (parts r).length) 0 := by
  rw [foldl_add_length, Nat.zero_add]
  exact (c.revisions_perm.symm.flatMap_right parts).length_eq

theorem Refines.isDoubtful_of_mem {c : Catalogue} {l : Listing} (h : Refines c l)
    (hlatest : l.IsLatest) {r : Revision} (hr : r ∈ c.revisions)
    : r.isDoubtful = decide r.field.IsDoubtful := by
  rw [h.mem_revisions_iff] at hr
  rcases hr with ⟨name, hget⟩
  have hnumbered := (h.last_of_get? hlatest hget).2.1
  unfold Revision.numbered at hnumbered
  rw [List.mem_mapIdx] at hnumbered
  rcases hnumbered with ⟨index, _, rfl⟩
  exact Revision.isDoubtful_next index _

theorem stats_of_performAll (evaluator : Evaluator) (requests : List Request)
    : let c := ((Catalogue.empty evaluator).performAll requests).1
      let s := c.stats
      c.perform .stats = (c, .ok (.stats s))
        ∧ s.fields = c.size
        ∧ s.fields = c.names.length
        ∧ s.conditions
            = c.revisions.foldl (fun total r => total + r.field.conditions.length) 0
        ∧ s.validations
            = c.revisions.foldl (fun total r => total + r.field.rules.length) 0
        ∧ s.doubtful = c.revisions.countP (fun r => decide r.field.IsDoubtful) := by
  intro c s
  have h : Refines c (Listing.empty.performAll requests) :=
    (Refines.empty evaluator).performAll requests
  have hlatest := Listing.IsLatest.empty.performAll requests
  refine ⟨rfl, rfl, c.length_names.symm, ?_, ?_, ?_⟩
  . exact c.length_flatMap_values (·.field.conditions)
  . exact c.length_flatMap_values (·.field.rules)
  . have hcount : s.doubtful = c.revisions.countP (·.isDoubtful) :=
      (c.revisions_perm.countP_eq _).symm
    rw [hcount]
    apply List.countP_congr
    intro r hr
    rw [h.isDoubtful_of_mem hlatest hr]

end Catalogue

end FormLogic
