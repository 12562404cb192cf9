import FormLogic.Warning

/-!
This module contains the proof that the duplicate ids of a field are those that occur again among
its conditions or among its rules. Both kinds of ids are collected in one list, which names every id
once: first those of the conditions and then those of the rules, each in the order in which they
occur for the second time.
-/

namespace FormLogic

def IsSecondAt (ids : List String) (id : String) (place : Nat) : Prop :=
  ids[place]? = some id ∧ (ids.take place).count id = 1

theorem IsSecondAt.append {ids : List String} {id : String} {place : Nat}
    (h : IsSecondAt ids id place) (more : List String) : IsSecondAt (ids ++ more) id place := by
  have ⟨hlt, _⟩ := List.getElem?_eq_some_iff.mp h.1
  constructor
  . rw [List.getElem?_append_left hlt]
    exact h.1
  . rw [List.take_append_of_le_length (Nat.le_of_lt hlt)]
    exact h.2

theorem isSecondAt_length {ids : List String} {id : String} (h : ids.count id = 1)
    : IsSecondAt (ids ++ [id]) id ids.length := by
  constructor
  . simp
  . rw [List.take_left]
    exact h

/--
One id occurs for the second time in front of the place where another one does.
-/
def SecondBefore (ids : List String) (a b : String) : Prop :=
  ∃ i j, IsSecondAt ids a i ∧ IsSecondAt ids b j ∧ i < j

theorem SecondBefore.append {ids : List String} {a b : String} (h : SecondBefore ids a b)
    (more : List String) : SecondBefore (ids ++ more) a b := by
  rcases h with ⟨i, j, hi, hj, hlt⟩
  exact ⟨i, j, hi.append more, hj.append more, hlt⟩

structure IsSeconds (known occurrences found : List String) : Prop where
  mem_iff : ∀ id, id ∈ found ↔ 2 ≤ occurrences.count id ∧ id ∉ known
  placed : ∀ id ∈ found, ∃ place, IsSecondAt occurrences id place
  ordered : found.Pairwise (SecondBefore occurrences)

namespace IsSeconds

theorem nil (known : List String) : IsSeconds known [] [] := ⟨by simp, by simp, .nil⟩

variable {known occurrences found : List String} {id : String}

theorem append_keeping (h : IsSeconds known occurrences found)
    (hid : id ∈ occurrences → id ∈ known ++ found)
    : IsSeconds known (occurrences ++ [id]) found where
  mem_iff := by
    intro other
    rw [List.count_append, List.count_singleton]
    split
    . next heq =>
      rw [beq_iff_eq] at heq
      subst heq
      have hiff := h.mem_iff id
      rw [List.mem_append] at hid
      rw [hiff]
      constructor
      . intro hfound
        exact ⟨by omega, hfound.2⟩
      . intro hcount
        have hocc : id ∈ occurrences := List.count_pos_iff.mp (by omega)
        rcases hid hocc with hknown | hfound
        . exact absurd hknown hcount.2
        . exact hiff.mp hfound
    . exact h.mem_iff other
  placed := by
    intro other hother
    have ⟨place, hplace⟩ := h.placed other hother
    exact ⟨place, hplace.append [id]⟩
  ordered := by
    apply h.ordered.imp
    intro a b hab
    exact hab.append [id]

theorem append_adding (h : IsSeconds known occurrences found) (hid : id ∈ occurrences)
    (hnew : id ∉ known ++ found) : IsSeconds known (occurrences ++ [id]) (found ++ [id]) := by
  rw [List.mem_append, not_or] at hnew
  -- It occurred before and is not listed, so this is its second place.
  have hcount : occurrences.count id = 1 := by
    have hpos := List.count_pos_iff.mpr hid
    have hiff := h.mem_iff id
    have : ¬2 ≤ occurrences.count id := by
      intro htwo
      exact hnew.2 (hiff.mpr ⟨htwo, hnew.1⟩)
    omega
  have hlast := isSecondAt_length hcount
  constructor
  . intro other
    rw [List.mem_append, List.mem_singleton, h.mem_iff, List.count_append, List.count_singleton]
    by_cases heq : other = id
    . subst heq
      simp [hcount, hnew.1]
    . have : (id == other) = false := by
        simpa using Ne.symm heq
      simp [heq, this]
  . intro other hother
    rw [List.mem_append, List.mem_singleton] at hother
    rcases hother with hother | rfl
    . have ⟨place, hplace⟩ := h.placed other hother
      exact ⟨place, hplace.append [id]⟩
    . exact ⟨_, hlast⟩
  . rw [List.pairwise_append]
    refine ⟨?_, by simp, ?_⟩
    . apply h.ordered.imp
      intro a b hab
      exact hab.append [id]
    . intro a ha b hb
      rw [List.mem_singleton] at hb
      have ⟨place, hplace⟩ := h.placed a ha
      have ⟨hlt, _⟩ := List.getElem?_eq_some_iff.mp hplace.1
      exact ⟨place, occurrences.length, hplace.append [id], hb ▸ hlast, hlt⟩

end IsSeconds

namespace Field

theorem exists_addRepeated_eq {known seen occurrences found : List String}
    (hseen : ∀ id, id ∈ seen ↔ id ∈ occurrences) (h : IsSeconds known occurrences found)
    (ids : List String)
    : ∃ seconds, addRepeated seen (known ++ found) ids = known ++ seconds
        ∧ IsSeconds known (occurrences ++ ids) seconds := by
  -- What was seen are the occurrences so far, in any order.
  induction ids generalizing seen occurrences found with
  | nil =>
    rw [List.append_nil]
    exact ⟨found, rfl, h⟩
  | cons id ids ih =>
    have happend : occurrences ++ id :: ids = occurrences ++ [id] ++ ids := by simp
    rw [addRepeated, happend]
    split
    . next hid =>
      have hsame : ∀ other, other ∈ seen ↔ other ∈ occurrences ++ [id] := by
        intro other
        rw [List.mem_append, List.mem_singleton, ← hseen]
        constructor
        . exact .inl
        . rintro (hother | rfl)
          . exact hother
          . exact hid
      split
      . next hfound =>
        apply ih hsame
        apply h.append_keeping
        intro _
        exact hfound
      . next hnew =>
        rw [List.append_assoc]
        apply ih hsame
        exact h.append_adding ((hseen id).mp hid) hnew
    . next hid =>
      have hsame : ∀ other, other ∈ id :: seen ↔ other ∈ occurrences ++ [id] := by
        intro other
        rw [List.mem_append, List.mem_singleton, List.mem_cons, ← hseen, or_comm]
      apply ih hsame
      apply h.append_keeping
      intro hocc
      exact absurd ((hseen id).mpr hocc) hid

theorem nodup_addRepeated {found : List String} (h : found.Nodup) (seen ids : List String)
    : (addRepeated seen found ids).Nodup := by
  induction ids generalizing seen found with
  | nil => exact h
  | cons id ids ih =>
    rw [addRepeated]
    split
    . split
      . exact ih h seen
      . next hnew =>
        apply ih
        rw [List.nodup_append]
        refine ⟨h, by simp, ?_⟩
        intro a ha b hb heq
        rw [List.mem_singleton] at hb
        exact hnew (hb ▸ heq ▸ ha)
    . exact ih h _

theorem exists_duplicateIds_eq (f : Field)
    : ∃ first second, f.duplicateIds = first ++ second
        ∧ IsSeconds [] (f.conditions.map (·.id)) first
        ∧ IsSeconds first (f.rules.map (·.id)) second := by
  have ⟨first, hfirst, hconditions⟩ :=
    exists_addRepeated_eq (fun id => .rfl) (IsSeconds.nil []) (f.conditions.map (·.id))
  have ⟨second, hsecond, hrules⟩ :=
    exists_addRepeated_eq (fun id => .rfl) (IsSeconds.nil first) (f.rules.map (·.id))
  simp only [List.nil_append, List.append_nil] at hfirst hconditions hsecond hrules
  refine ⟨first, second, ?_, hconditions, hrules⟩
  unfold duplicateIds
  rw [hfirst, hsecond]

theorem nodup_duplicateIds (f : Field) : f.duplicateIds.Nodup := by
  apply nodup_addRepeated
  apply nodup_addRepeated
  exact List.nodup_nil

end Field

namespace Revision

theorem warnings_eq (r : Revision)
    : r.warnings
        =
      r.duplicateIds.map (fun id =>
        ⟨"重复的规则 ID，后定义的结果将覆盖先定义的", [("field", r.field.name), ("id", id)]⟩)
        ++ r.unresolvedOperands.map fun id =>
          ⟨"逻辑表达式引用了未定义的 ID，将按 false 处理", [("field", r.field.name), ("operand", id)]⟩ := by
  unfold warnings doubts
  rw [List.map_append, List.map_map, List.map_map]
  rfl

theorem next_reports_repeated_ids (last : Nat) (f : Field)
    : let r := next last f
      let conditionIds := f.conditions.map (·.id)
      let ruleIds := f.rules.map (·.id)
      (∀ id, id ∈ r.duplicateIds ↔ 2 ≤ conditionIds.count id ∨ 2 ≤ ruleIds.count id)
        ∧ r.duplicateIds.Nodup
        ∧ (∃ first second, r.duplicateIds = first ++ second
            ∧ (∀ id, id ∈ first ↔ 2 ≤ conditionIds.count id)
            ∧ (∀ id, id ∈ second ↔ 2 ≤ ruleIds.count id ∧ conditionIds.count id < 2)
            ∧ first.Pairwise (SecondBefore conditionIds)
            ∧ second.Pairwise (SecondBefore ruleIds))
        ∧ (∀ id, conditionIds.count id = 1 → ruleIds.count id = 1 → id ∉ r.duplicateIds)
        ∧ r.warnings
            = r.duplicateIds.map (fun id =>
                ⟨"重复的规则 ID，后定义的结果将覆盖先定义的", [("field", f.name), ("id", id)]⟩)
              ++ r.unresolvedOperands.map (fun id =>
                ⟨"逻辑表达式引用了未定义的 ID，将按 false 处理", [("field", f.name), ("operand", id)]⟩)
        ∧ r.field = f := by
  intro r conditionIds ruleIds
  have ⟨first, second, heq, hconditions, hrules⟩ := f.exists_duplicateIds_eq
  have hfirst : ∀ id, id ∈ first ↔ 2 ≤ conditionIds.count id := by
    intro id
    rw [hconditions.mem_iff]
    simp [conditionIds]
  have hsecond : ∀ id, id ∈ second ↔ 2 ≤ ruleIds.count id ∧ conditionIds.count id < 2 := by
    intro id
    rw [hrules.mem_iff, hfirst, Nat.not_le]
  have hmem : ∀ id, id ∈ r.duplicateIds ↔ 2 ≤ conditionIds.count id ∨ 2 ≤ ruleIds.count id := by
    intro id
    have hsplit : id ∈ r.duplicateIds ↔ id ∈ first ∨ id ∈ second := by
      rw [← List.mem_append, ← heq]
      rfl
    rw [hsplit, hfirst, hsecond]
    omega
  refine ⟨hmem, f.nodup_duplicateIds, ?_, ?_, r.warnings_eq, rfl⟩
  . exact ⟨first, second, heq, hfirst, hsecond, hconditions.ordered, hrules.ordered⟩
  . intro id hcondition hrule
    rw [hmem]
    omega

theorem next_reports_repeated_ids_of_both_kinds
    : let condition := fun id => (⟨id, "", .equals, none⟩ : Condition)
      let leaf := fun id => Validation.leaf ⟨id, "", .equals, none, ""⟩
      let composite := fun id => Validation.composite ⟨id, [.operand "x"], ""⟩
      let f : Field := ⟨"f", "", "", ["b", "a", "b", "a", "a", "c"].map condition, [.operand "y"],
        some [leaf "a", composite "c", leaf "d", composite "d", leaf "e", leaf "a"]⟩
      let r := next 0 f
      (f.conditions.map (·.id)).count "c" = 1
        ∧ (f.rules.map (·.id)).count "c" = 1
        ∧ "c" ∉ r.duplicateIds
        ∧ r.duplicateIds = ["b", "a", "d"]
        ∧ r.warnings
            =
          [⟨"重复的规则 ID，后定义的结果将覆盖先定义的", [("field", "f"), ("id", "b")]⟩,
            ⟨"重复的规则 ID，后定义的结果将覆盖先定义的", [("field", "f"), ("id", "a")]⟩,
            ⟨"重复的规则 ID，后定义的结果将覆盖先定义的", [("field", "f"), ("id", "d")]⟩,
            ⟨"逻辑表达式引用了未定义的 ID，将按 false 处理", [("field", "f"), ("operand", "y")]⟩,
            ⟨"逻辑表达式引用了未定义的 ID，将按 false 处理", [("field", "f"), ("operand", "x")]⟩] := by
  intro condition leaf composite f r
  have hcondition : (f.conditions.map (·.id)).count "c" = 1 := by decide
  have hrule : (f.rules.map (·.id)).count "c" = 1 := by decide
  have ⟨_, _, _, honce, hwarnings, _⟩ := next_reports_repeated_ids 0 f
  exact ⟨hcondition, hrule, honce "c" hcondition hrule, by decide, hwarnings⟩

end Revision

end FormLogic
