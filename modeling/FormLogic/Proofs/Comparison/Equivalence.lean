import FormLogic.Proofs.Comparison.Sameness
import FormLogic.Proofs.Json.Values
import FormLogic.Proofs.Number.Plain
import Mathlib.Data.List.Perm.Subperm

/-!
This module contains the proof that being equal is an equivalence relation, on values and on what is
undefined. Objects are compared by looking up the members of one in the other, and their sizes. That
this does not depend on the side, and not on the order of members, rests on the keys of an object
being different from one another, as they are in every value that is read.
-/

namespace FormLogic

namespace Operator

variable {a b c : Option Json}

theorem isSome_eq_of_areEqual (h : areEqual a b) : a.isSome = b.isSome := by
  cases a
  all_goals
    cases b
  all_goals
    first
      | rfl
      | cases h

theorem areEqual_self (h : ∀ v ∈ a, v.equal v) : areEqual a a := by
  cases a with
  | none => rfl
  | some v => exact h v rfl

theorem areEqual_symm (h : ∀ v ∈ a, ∀ w ∈ b, v.equal w → w.equal v) (hab : areEqual a b)
    : areEqual b a := by
  cases a with
  | none =>
    cases b with
    | none => rfl
    | some w => cases hab
  | some v =>
    cases b with
    | none => cases hab
    | some w => exact h v rfl w rfl hab

theorem areEqual_trans (h : ∀ u ∈ a, ∀ v ∈ b, ∀ w ∈ c, u.equal v → v.equal w → u.equal w)
    (hab : areEqual a b) (hbc : areEqual b c) : areEqual a c := by
  cases a with
  | none =>
    cases b with
    | none => exact hbc
    | some v => cases hab
  | some u =>
    cases b with
    | none => cases hab
    | some v =>
      cases c with
      | none => cases hbc
      | some w => exact h u rfl v rfl w rfl hab hbc

end Operator

namespace Json

inductive HasUniqueKeys : Json → Prop where
  | null : HasUniqueKeys null
  | bool (b : Bool) : HasUniqueKeys (bool b)
  | number (n : Number) : HasUniqueKeys (number n)
  | string (s : String) : HasUniqueKeys (string s)
  | array {items : List Json} (hitems : ∀ v ∈ items, HasUniqueKeys v) : HasUniqueKeys (array items)
  | object {members : List (String × Json)} (hkeys : (members.map (·.1)).Nodup)
      (hmembers : ∀ m ∈ members, HasUniqueKeys m.2) : HasUniqueKeys (object members)

mutual

theorem hasUniqueKeys_of_isOrdered : ∀ {v : Json}, v.IsOrdered → v.HasUniqueKeys
  | null, _ => .null
  | bool b, _ => .bool b
  | number n, _ => .number n
  | string s, _ => .string s
  | array _, h => .array (hasUniqueKeys_of_areOrdered h)
  | object _, h => .object h.1.nodup_keys (hasUniqueKeys_of_haveOrdered h.2)

theorem hasUniqueKeys_of_areOrdered
    : ∀ {items : List Json}, AreOrdered items → ∀ v ∈ items, v.HasUniqueKeys
  | [], _ => by simp
  | v :: vs, h => by
    rw [List.forall_mem_cons]
    exact ⟨hasUniqueKeys_of_isOrdered h.1, hasUniqueKeys_of_areOrdered h.2⟩

theorem hasUniqueKeys_of_haveOrdered
    : ∀ {members : List (String × Json)}, HaveOrdered members → ∀ m ∈ members, m.2.HasUniqueKeys
  | [], _ => by simp
  | (k, v) :: ms, h => by
    rw [List.forall_mem_cons]
    exact ⟨hasUniqueKeys_of_isOrdered h.1, hasUniqueKeys_of_haveOrdered h.2⟩

end

theorem hasUniqueKeys_of_asValue {d : Document} {room : Nat} {v : Json}
    (h : Document.asValue room d = .ok v) : v.HasUniqueKeys :=
  hasUniqueKeys_of_isOrdered (fits_of_asValue h).ordered

section Members

variable {members as bs cs : List (String × Json)}

theorem mem_of_find?_eq_some {key : String} {v : Json} (h : find? members key = some v)
    : (key, v) ∈ members := by
  induction members with
  | nil => cases h
  | cons m ms ih =>
    rw [find?] at h
    split at h
    . next heq =>
      cases h
      rw [← heq]
      exact List.mem_cons_self
    . exact List.mem_cons_of_mem _ (ih h)

theorem find?_eq_some_of_mem (hkeys : (members.map (·.1)).Nodup) {m : String × Json}
    (hm : m ∈ members) : find? members m.1 = some m.2 := by
  induction members with
  | nil => cases hm
  | cons first members ih =>
    rw [List.map_cons, List.nodup_cons] at hkeys
    rw [find?]
    rw [List.mem_cons] at hm
    rcases hm with rfl | hm
    . exact if_pos rfl
    . have hne : first.1 ≠ m.1 := by
        intro heq
        apply hkeys.1
        rw [heq]
        exact List.mem_map_of_mem hm
      rw [if_neg hne]
      exact ih hkeys.2 hm

theorem find?_eq_some_iff (hkeys : (members.map (·.1)).Nodup) (key : String) (v : Json)
    : find? members key = some v ↔ (key, v) ∈ members := by
  constructor
  . exact mem_of_find?_eq_some
  . intro hm
    exact find?_eq_some_of_mem hkeys hm

theorem find?_eq_of_perm (hkeys : (as.map (·.1)).Nodup) (h : as.Perm bs) (key : String)
    : find? as key = find? bs key := by
  have hkeys' : (bs.map (·.1)).Nodup := (h.map (·.1)).nodup_iff.mp hkeys
  apply Option.ext
  intro v
  rw [find?_eq_some_iff hkeys, find?_eq_some_iff hkeys', h.mem_iff]

theorem isSome_find?_iff (key : String)
    : (find? members key).isSome ↔ key ∈ members.map (·.1) := by
  induction members with
  | nil => simp [find?]
  | cons m ms ih =>
    rw [find?, List.map_cons, List.mem_cons, ← ih]
    split
    . next heq => simp [heq]
    . next hne => simp [Ne.symm hne]

theorem includedMembers_iff
    : includedMembers as bs ↔ ∀ m ∈ as, ∃ b, find? bs m.1 = some b ∧ m.2.equal b := by
  induction as with
  | nil => simp [includedMembers]
  | cons m ms ih =>
    rw [includedMembers, List.forall_mem_cons, ← ih]
    cases find? bs m.1 with
    | none => simp
    | some b => simp

theorem length_eq_of_isSome_find?_eq (has : (as.map (·.1)).Nodup) (hbs : (bs.map (·.1)).Nodup)
    (h : ∀ key, (find? as key).isSome = (find? bs key).isSome) : as.length = bs.length := by
  have hperm : (as.map (·.1)).Perm (bs.map (·.1)) := by
    rw [List.perm_ext_iff_of_nodup has hbs]
    intro key
    rw [← isSome_find?_iff, ← isSome_find?_iff, h]
  have hlength := hperm.length_eq
  rw [List.length_map, List.length_map] at hlength
  exact hlength

theorem isSome_find?_eq_of_length_eq (has : (as.map (·.1)).Nodup) (hlength : as.length = bs.length)
    (hfound : ∀ m ∈ as, (find? bs m.1).isSome) (key : String)
    : (find? as key).isSome = (find? bs key).isSome := by
  have hsubset : as.map (·.1) ⊆ bs.map (·.1) := by
    intro key hkey
    rw [List.mem_map] at hkey
    rcases hkey with ⟨m, hm, rfl⟩
    rw [← isSome_find?_iff]
    exact hfound m hm
  -- Different keys that are found among as many others are all of them.
  have hperm : (as.map (·.1)).Perm (bs.map (·.1)) := by
    apply (List.subperm_of_subset has hsubset).perm_of_length_le
    apply Nat.le_of_eq
    rw [List.length_map, List.length_map, hlength]
  rw [Bool.eq_iff_iff, isSome_find?_iff, isSome_find?_iff]
  exact hperm.mem_iff

theorem equal_object_iff (has : (as.map (·.1)).Nodup) (hbs : (bs.map (·.1)).Nodup)
    : (object as).equal (object bs)
        ↔
      ∀ key, Operator.areEqual (find? as key) (find? bs key) := by
  rw [equal, Bool.and_eq_true, beq_iff_eq, includedMembers_iff]
  constructor
  . intro ⟨hlength, hincluded⟩ key
    have hsome : (find? as key).isSome = (find? bs key).isSome := by
      apply isSome_find?_eq_of_length_eq has hlength
      intro m hm
      have ⟨b, hb, _⟩ := hincluded m hm
      simp [hb]
    cases ha : find? as key with
    | none =>
      rw [ha, Option.isSome_none, eq_comm, Option.isSome_eq_false_iff, Option.isNone_iff_eq_none]
        at hsome
      rw [hsome]
      rfl
    | some a =>
      have ⟨b, hb, hequal⟩ := hincluded (key, a) (mem_of_find?_eq_some ha)
      rw [hb]
      exact hequal
  . intro h
    constructor
    . apply length_eq_of_isSome_find?_eq has hbs
      intro key
      exact Operator.isSome_eq_of_areEqual (h key)
    . intro m hm
      have hkey := h m.1
      rw [find?_eq_some_of_mem has hm] at hkey
      cases hb : find? bs m.1 with
      | none => simp [hb, Operator.areEqual] at hkey
      | some b =>
        rw [hb] at hkey
        exact ⟨b, rfl, hkey⟩

end Members

theorem equal_array_iff {as bs : List Json}
    : (array as).equal (array bs) ↔ ∀ i : Nat, Operator.areEqual as[i]? bs[i]? := by
  rw [equal]
  induction as generalizing bs with
  | nil =>
    cases bs with
    | nil => simp [equalItems, Operator.areEqual]
    | cons b bs =>
      rw [← Nat.and_forall_add_one]
      simp [equalItems, Operator.areEqual]
  | cons a as ih =>
    rw [← Nat.and_forall_add_one]
    cases bs with
    | nil => simp [equalItems, Operator.areEqual]
    | cons b bs =>
      rw [equalItems, Bool.and_eq_true, ih]
      rfl

theorem equal_number_iff (n m : Number)
    : (number n).equal (number m) ↔ n.toScalar.rank? = m.toScalar.rank? := by
  rw [equal, beq_iff_eq, Scalar.compare?_eq_some_eq_iff]
  constructor
  . intro ⟨rank, hn, hm⟩
    rw [hn, hm]
  . intro h
    have ⟨rank, hm⟩ := m.exists_rank?_toScalar
    exact ⟨rank, h.trans hm, hm⟩

theorem equal_self {v : Json} (h : v.HasUniqueKeys) : v.equal v := by
  induction h with
  | null => rfl
  | bool b => simp [equal]
  | number n => rw [equal_number_iff]
  | string s => simp [equal]
  | @array items _ ih =>
    rw [equal_array_iff]
    intro i
    apply Operator.areEqual_self
    intro v hv
    exact ih v (List.mem_of_getElem? hv)
  | @object members hkeys _ ih =>
    rw [equal_object_iff hkeys hkeys]
    intro key
    apply Operator.areEqual_self
    intro v hv
    exact ih (key, v) (mem_of_find?_eq_some hv)

theorem equal_symm {a b : Json} (ha : a.HasUniqueKeys) (hb : b.HasUniqueKeys) (hab : a.equal b)
    : b.equal a := by
  induction ha generalizing b with
  | @array as _ ih =>
    cases hb with
    | @array bs hbs =>
      rw [equal_array_iff] at hab ⊢
      intro i
      apply Operator.areEqual_symm ?_ (hab i)
      intro v hv w hw
      exact ih v (List.mem_of_getElem? hv) (hbs w (List.mem_of_getElem? hw))
    | _ => cases hab
  | @object as has _ ih =>
    cases hb with
    | @object bs hbs hbs' =>
      rw [equal_object_iff has hbs] at hab
      rw [equal_object_iff hbs has]
      intro key
      apply Operator.areEqual_symm ?_ (hab key)
      intro v hv w hw
      exact ih (key, v) (mem_of_find?_eq_some hv) (hbs' (key, w) (mem_of_find?_eq_some hw))
    | _ => cases hab
  | number n =>
    cases hb with
    | number m =>
      rw [equal_number_iff] at hab ⊢
      exact hab.symm
    | _ => cases hab
  | _ =>
    cases hb
    all_goals
      simp_all [equal]

theorem equal_trans {a b c : Json} (ha : a.HasUniqueKeys) (hb : b.HasUniqueKeys)
    (hc : c.HasUniqueKeys) (hab : a.equal b) (hbc : b.equal c) : a.equal c := by
  induction ha generalizing b c with
  | @array as _ ih =>
    cases hb with
    | @array bs hbs =>
      cases hc with
      | @array cs hcs =>
        rw [equal_array_iff] at hab hbc ⊢
        intro i
        apply Operator.areEqual_trans ?_ (hab i) (hbc i)
        intro u hu v hv w hw
        exact ih u (List.mem_of_getElem? hu) (hbs v (List.mem_of_getElem? hv))
          (hcs w (List.mem_of_getElem? hw))
      | _ => cases hbc
    | _ => cases hab
  | @object as has _ ih =>
    cases hb with
    | @object bs hbs hbs' =>
      cases hc with
      | @object cs hcs hcs' =>
        rw [equal_object_iff has hbs] at hab
        rw [equal_object_iff hbs hcs] at hbc
        rw [equal_object_iff has hcs]
        intro key
        apply Operator.areEqual_trans ?_ (hab key) (hbc key)
        intro u hu v hv w hw
        exact ih (key, u) (mem_of_find?_eq_some hu) (hbs' (key, v) (mem_of_find?_eq_some hv))
          (hcs' (key, w) (mem_of_find?_eq_some hw))
      | _ => cases hbc
    | _ => cases hab
  | number n =>
    cases hb with
    | number m =>
      cases hc with
      | number k =>
        rw [equal_number_iff] at hab hbc ⊢
        exact hab.trans hbc
      | _ => cases hbc
    | _ => cases hab
  | null =>
    cases hb with
    | null => exact hbc
    | _ => cases hab
  | bool x =>
    cases hb with
    | bool y =>
      simp only [equal, beq_iff_eq] at hab
      rw [hab]
      exact hbc
    | _ => cases hab
  | string s =>
    cases hb with
    | string t =>
      simp only [equal, beq_iff_eq] at hab
      rw [hab]
      exact hbc
    | _ => cases hab

theorem equal_object_of_perm {as bs : List (String × Json)} (h : (object as).HasUniqueKeys)
    (hperm : as.Perm bs) : (object as).equal (object bs) := by
  have hself := equal_self h
  cases h with
  | object has =>
    have hbs : (bs.map (·.1)).Nodup := (hperm.map (·.1)).nodup_iff.mp has
    rw [equal_object_iff has has] at hself
    rw [equal_object_iff has hbs]
    intro key
    rw [← find?_eq_of_perm has hperm key]
    exact hself key

end Json

namespace Operator

/--
What an operator is applied to: a value or nothing at all.
-/
structure Operand where
  value : Option Json
  hasUniqueKeys : ∀ v ∈ value, v.HasUniqueKeys

theorem equals_equivalence
    : Equivalence (fun a b : Operand => equals.relates a.value b.value = true)
        ∧ (∀ a b : Operand, a.value == b.value → equals.relates a.value b.value = true)
        ∧ ∀ as bs : List (String × Json), (Json.object as).HasUniqueKeys
          → (Json.object bs).HasUniqueKeys
          → (equals.relates (some (.object as)) (some (.object bs)) = true
              ↔
            ∀ key, equals.relates (Json.find? as key) (Json.find? bs key) = true)
            ∧ (as.Perm bs → equals.relates (some (.object as)) (some (.object bs)) = true) := by
  have hself : ∀ a : Operand, areEqual a.value a.value := by
    intro a
    apply areEqual_self
    intro v hv
    exact Json.equal_self (a.hasUniqueKeys v hv)
  refine ⟨⟨hself, ?_, ?_⟩, ?_, ?_⟩
  . intro a b hab
    apply areEqual_symm ?_ hab
    intro v hv w hw
    exact Json.equal_symm (a.hasUniqueKeys v hv) (b.hasUniqueKeys w hw)
  . intro a b c hab hbc
    apply areEqual_trans ?_ hab hbc
    intro u hu v hv w hw
    exact Json.equal_trans (a.hasUniqueKeys u hu) (b.hasUniqueKeys v hv) (c.hasUniqueKeys w hw)
  . intro a b hsame
    rw [relates_eq_of_beq equals hsame]
    exact hself b
  . intro as bs has hbs
    constructor
    . cases has with
      | object has =>
        cases hbs with
        | object hbs => exact Json.equal_object_iff has hbs
    . intro hperm
      exact Json.equal_object_of_perm has hperm

theorem equals_equivalence_swapped_members
    : let zero : Json := .array [.number (.whole 0 (by decide)), .null]
      let minusZero : Json := .array [.number (.real (.zero true)), .null]
      let text : Json := .object [("m", .string "x")]
      let as := [("k", zero), ("l", text)]
      let bs := [("l", text), ("k", minusZero)]
      let cs := [("l", text), ("k", zero)]
      (Json.object as).HasUniqueKeys ∧ (Json.object bs).HasUniqueKeys
        ∧ (∀ key, equals.relates (Json.find? as key) (Json.find? bs key) = true)
        ∧ equals.relates (some (.object bs)) (some (.object as)) = true
        ∧ as.Perm cs ∧ equals.relates (some (.object as)) (some (.object cs)) = true := by
  intro zero minusZero text as bs cs
  have ⟨hequivalence, _, hobjects⟩ := equals_equivalence
  have has : (Json.object as).HasUniqueKeys :=
    @Json.hasUniqueKeys_of_asValue (Json.object as).toDocument 2 _ rfl
  have htext : text.HasUniqueKeys := .object (by decide) (by simp [Json.HasUniqueKeys.string])
  have hbs : (Json.object bs).HasUniqueKeys := by
    refine .object (by decide) ?_
    simp [bs, minusZero, htext, Json.HasUniqueKeys.array, Json.HasUniqueKeys.number,
      Json.HasUniqueKeys.null]
  have hcs : (Json.object cs).HasUniqueKeys := by
    refine .object (by decide) ?_
    simp [cs, zero, htext, Json.HasUniqueKeys.array, Json.HasUniqueKeys.number,
      Json.HasUniqueKeys.null]
  have hperm : as.Perm cs := List.Perm.swap _ _ _
  have hab : equals.relates (some (.object as)) (some (.object bs)) = true := by decide +kernel
  let a : Operand := ⟨some (.object as), by simpa using has⟩
  let b : Operand := ⟨some (.object bs), by simpa using hbs⟩
  exact ⟨has, hbs, (hobjects as bs has hbs).1.mp hab, hequivalence.symm (x := a) (y := b) hab,
    hperm, (hobjects as cs has hcs).2 hperm⟩

end Operator

end FormLogic
