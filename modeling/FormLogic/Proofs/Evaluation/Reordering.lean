import FormLogic.Proofs.Evaluation.Meaning
import FormLogic.Revision

/-!
This module contains the proof that the order of its rules does not decide about a field without
duplicate ids. An id that occurs once stands for the same rule wherever the rule is, so only the
choice among several complaints is left to the order.
-/

namespace FormLogic

theorem find?_eq_of_perm {α : Type} (idOf : α → String) {as bs : List α} (h : as.Perm bs)
    (hids : (as.map idOf).Nodup) (id : String)
    : as.find? (idOf · = id) = bs.find? (idOf · = id) := by
  induction h with
  | nil => rfl
  | cons a h ih =>
    rw [List.map_cons, List.nodup_cons] at hids
    rw [List.find?_cons, List.find?_cons, ih hids.2]
  | swap a b rest =>
    have hne : idOf b ≠ idOf a := by
      intro heq
      rw [List.map_cons, List.map_cons, heq, List.nodup_cons] at hids
      exact hids.1 List.mem_cons_self
    rw [List.find?_cons, List.find?_cons, List.find?_cons, List.find?_cons]
    -- At most one of the two has the id, so it does not matter which of them is asked first.
    by_cases ha : idOf a = id
    . simp [ha, ha ▸ hne]
    . simp [ha]
  | trans h _ ih ih' => rw [ih hids, ih' ((h.map idOf).nodup hids)]

theorem find?_reverse_eq_of_perm {α : Type} (idOf : α → String) {as bs : List α}
    (h : as.Perm bs) (hids : (as.map idOf).Nodup) (id : String)
    : as.reverse.find? (idOf · = id) = bs.reverse.find? (idOf · = id) := by
  apply find?_eq_of_perm
  . exact (as.reverse_perm.trans h).trans bs.reverse_perm.symm
  . exact (as.reverse_perm.map idOf).nodup_iff.mpr hids

namespace Field

theorem addRepeated_eq_nil_iff (seen found ids : List String)
    : addRepeated seen found ids = [] ↔ found = [] ∧ ids.Nodup ∧ ∀ id ∈ ids, id ∉ seen := by
  induction ids generalizing seen found with
  | nil => simp [addRepeated]
  | cons id ids ih =>
    unfold addRepeated
    split
    . next hseen =>
      have hfound : (if id ∈ found then found else found ++ [id]) ≠ [] := by
        split
        . next hmem => exact List.ne_nil_of_mem hmem
        . simp
      rw [ih]
      constructor
      . intro h
        exact absurd h.1 hfound
      . intro h
        exact absurd hseen (h.2.2 id List.mem_cons_self)
    . next hseen =>
      rw [ih, List.nodup_cons]
      simp only [List.mem_cons, not_or, forall_eq_or_imp]
      constructor
      . intro h
        rcases h with ⟨hfound, hids, hnew⟩
        refine ⟨hfound, ⟨?_, hids⟩, hseen, ?_⟩
        . intro hid
          exact (hnew id hid).1 rfl
        . intro other hother
          exact (hnew other hother).2
      . intro h
        rcases h with ⟨hfound, ⟨hid, hids⟩, _, hnew⟩
        refine ⟨hfound, hids, ?_⟩
        intro other hother
        refine ⟨?_, hnew other hother⟩
        intro heq
        exact hid (heq ▸ hother)

theorem duplicateIds_eq_nil_iff (f : Field)
    : f.duplicateIds = []
        ↔
      (f.conditions.map (·.id)).Nodup ∧ (f.rules.map (·.id)).Nodup := by
  unfold duplicateIds
  rw [addRepeated_eq_nil_iff, addRepeated_eq_nil_iff]
  simp

theorem sublist_map_id_leaves (rules : List Validation)
    : ((rules.filterMap (·.leaf?)).map (·.id)).Sublist (rules.map (·.id)) := by
  induction rules with
  | nil => exact .slnil
  | cons rule rules ih =>
    cases rule with
    | leaf rule => exact ih.cons_cons rule.id
    | composite rule => exact ih.cons rule.id

/--
The same rules in another order.
-/
structure IsReordering (f g : Field) : Prop where
  visibility_eq : g.visibility = f.visibility
  conditions_perm : g.conditions.Perm f.conditions
  rules_perm : g.rules.Perm f.rules

theorem isSome_complaint? (f : Field) (absent : Bool) (ctx : Context)
    : (f.complaint? absent ctx).isSome
        =
      (f.leaves.any (·.complains ctx)
        || f.composites.any (·.complains fun id => (f.leafResult? ctx id).getD absent)) := by
  rw [← List.isSome_find?, ← List.isSome_find?]
  unfold complaint?
  cases f.leaves.find? (·.complains ctx) with
  | none => simp
  | some rule => simp

namespace IsReordering

variable {f g : Field}

theorem leaves_perm (h : f.IsReordering g) : g.leaves.Perm f.leaves :=
  h.rules_perm.filterMap _

theorem composites_perm (h : f.IsReordering g) : g.composites.Perm f.composites :=
  h.rules_perm.filterMap _

theorem conditionResult?_eq (h : f.IsReordering g) (hids : (f.conditions.map (·.id)).Nodup)
    (ctx : Context) : g.conditionResult? ctx = f.conditionResult? ctx := by
  funext id
  unfold conditionResult?
  rw [find?_reverse_eq_of_perm (·.id) h.conditions_perm.symm hids]

theorem leafResult?_eq (h : f.IsReordering g) (hids : (f.rules.map (·.id)).Nodup) (ctx : Context)
    : g.leafResult? ctx = f.leafResult? ctx := by
  have hleaves : (f.leaves.map (·.id)).Nodup := (sublist_map_id_leaves f.rules).nodup hids
  funext id
  unfold leafResult?
  rw [find?_reverse_eq_of_perm (·.id) h.leaves_perm.symm hleaves]

theorem isSome_complaint?_eq (h : f.IsReordering g) (hids : (f.rules.map (·.id)).Nodup)
    (absent : Bool) (ctx : Context)
    : (g.complaint? absent ctx).isSome = (f.complaint? absent ctx).isSome := by
  rw [isSome_complaint?, isSome_complaint?, h.leafResult?_eq hids]
  rw [h.leaves_perm.any_eq, h.composites_perm.any_eq]

end IsReordering

end Field

namespace Evaluator

theorem isVisible_validate_of_isReordering (tracing : Bool) (last : Nat) (f g : Field)
    (hids : (Revision.next last f).duplicateIds = []) (h : f.IsReordering g) (ctx : Context)
    : ((ofTracing tracing).isVisible ctx g).1 = ((ofTracing tracing).isVisible ctx f).1
        ∧
      ((ofTracing tracing).validate ctx g).1.isSome
          =
        ((ofTracing tracing).validate ctx f).1.isSome := by
  have ⟨hconditions, hrules⟩ := f.duplicateIds_eq_nil_iff.mp hids
  constructor
  . unfold isVisible
    dsimp only
    rw [visibility_value, visibility_value, h.conditionResult?_eq hconditions, h.visibility_eq]
  . unfold validate
    dsimp only
    rw [validation_value, validation_value, h.isSome_complaint?_eq hrules]

theorem validate_of_exchanged_composites
    : let silent : Validation := .leaf ⟨"s", "a", .notEquals, some .null, ""⟩
      let k : Validation := .composite ⟨"k", [.operand "s"], "one"⟩
      let l : Validation := .composite ⟨"l", [.operand "s", .and], "two"⟩
      let f : Field := ⟨"f", "", "", [⟨"c", "a", .equals, none⟩, ⟨"d", "b", .equals, none⟩],
        [.operand "c", .not, .operand "d", .and], some [k, silent, l]⟩
      let g : Field := { f with
        conditions := f.conditions.reverse
        validations := some [l, silent, k] }
      let ctx : Context := ⟨.object [("a", .null)]⟩
      (Revision.next 0 f).duplicateIds = []
        ∧ f.IsReordering g
        ∧ g.isVisible ctx = f.isVisible ctx
        ∧ (g.validate ctx).isSome = (f.validate ctx).isSome
        ∧ f.validate ctx = some "one"
        ∧ g.validate ctx = some "two" := by
  intro silent k l f g ctx
  have hids : (Revision.next 0 f).duplicateIds = [] := by decide
  have h : f.IsReordering g := ⟨rfl, f.conditions.reverse_perm, f.rules.reverse_perm⟩
  have ⟨hvisible, hvalidate⟩ := isVisible_validate_of_isReordering false 0 f g hids h ctx
  exact ⟨hids, h, hvisible, hvalidate, by decide, by decide⟩

end Evaluator

end FormLogic
