import FormLogic.Json.Decode

/-!
This module contains the proof that a value is read back from its document, if there is room for its
containers. Every value that is read has room and has its members in the order of their keys.
-/

namespace FormLogic

namespace Json

def IsSorted (members : List (String × Json)) : Prop := members.Pairwise (·.1 < ·.1)

theorem IsSorted.nodup_keys {members : List (String × Json)} (h : IsSorted members)
    : (members.map (·.1)).Nodup := by
  unfold List.Nodup
  rw [List.pairwise_map]
  apply h.imp
  intro m n hlt heq
  rw [heq] at hlt
  exact String.lt_irrefl _ hlt

mutual

def IsOrdered : Json → Prop
  | array items => AreOrdered items
  | object members => IsSorted members ∧ HaveOrdered members
  | _ => True

def AreOrdered : List Json → Prop
  | [] => True
  | v :: vs => v.IsOrdered ∧ AreOrdered vs

def HaveOrdered : List (String × Json) → Prop
  | [] => True
  | (_, v) :: ms => v.IsOrdered ∧ HaveOrdered ms

end

mutual

def depth : Json → Nat
  | array items => itemsDepth items + 1
  | object members => membersDepth members + 1
  | _ => 0

def itemsDepth : List Json → Nat
  | [] => 0
  | v :: vs => max v.depth (itemsDepth vs)

def membersDepth : List (String × Json) → Nat
  | [] => 0
  | (_, v) :: ms => max v.depth (membersDepth ms)

end

theorem haveOrdered_iff (members : List (String × Json))
    : HaveOrdered members ↔ ∀ m ∈ members, m.2.IsOrdered := by
  induction members with
  | nil => simp [HaveOrdered]
  | cons m ms ih => simp [HaveOrdered, ih]

theorem membersDepth_le_iff (members : List (String × Json)) (room : Nat)
    : membersDepth members ≤ room ↔ ∀ m ∈ members, m.2.depth ≤ room := by
  induction members with
  | nil => simp [membersDepth]
  | cons m ms ih => rw [membersDepth, Nat.max_le, ih, List.forall_mem_cons]

theorem mem_insert {members : List (String × Json)} {key : String} {value : Json}
    {m : String × Json} (h : m ∈ insert members key value) : m = (key, value) ∨ m ∈ members := by
  induction members with
  | nil =>
    rw [insert, List.mem_singleton] at h
    exact .inl h
  | cons first members ih =>
    rw [insert] at h
    split at h
    . rwa [List.mem_cons] at h
    . split at h
      . rw [List.mem_cons] at h
        exact h.imp_right (List.mem_cons_of_mem _)
      . rw [List.mem_cons] at h
        rcases h with rfl | h
        . exact .inr List.mem_cons_self
        . exact (ih h).imp_right (List.mem_cons_of_mem _)

theorem isSorted_insert {members : List (String × Json)} (h : IsSorted members) (key : String)
    (value : Json) : IsSorted (insert members key value) := by
  induction members with
  | nil => exact List.pairwise_singleton _ _
  | cons first members ih =>
    unfold IsSorted at h
    rw [List.pairwise_cons] at h
    rw [insert]
    split
    . next hlt =>
      unfold IsSorted
      rw [List.pairwise_cons, List.pairwise_cons]
      refine ⟨?_, h⟩
      intro m hm
      rw [List.mem_cons] at hm
      rcases hm with rfl | hm
      . exact hlt
      . exact String.lt_trans hlt (h.1 m hm)
    . next hge =>
      split
      . next heq =>
        subst heq
        unfold IsSorted
        rw [List.pairwise_cons]
        exact h
      . next hne =>
        have hlt : first.1 < key := by
          rcases Std.lt_trichotomy key first.1 with hlt | heq | hgt
          . exact absurd hlt hge
          . exact absurd heq hne
          . exact hgt
        unfold IsSorted
        rw [List.pairwise_cons]
        refine ⟨?_, ih h.2⟩
        intro m hm
        rcases mem_insert hm with rfl | hm
        . exact hlt
        . exact h.1 m hm

theorem insert_of_forall_lt {members : List (String × Json)} {key : String}
    (h : ∀ m ∈ members, m.1 < key) (value : Json)
    : insert members key value = members ++ [(key, value)] := by
  induction members with
  | nil => rfl
  | cons first members ih =>
    rw [List.forall_mem_cons] at h
    have hlt : ¬key < first.1 := String.lt_asymm h.1
    have hne : key ≠ first.1 := by
      intro heq
      rw [heq] at h
      exact String.lt_irrefl _ h.1
    rw [insert, if_neg hlt, if_neg hne, ih h.2, List.cons_append]

theorem ofMembers_eq_foldl (members : List (String × Json))
    : ofMembers members = members.foldl (fun sorted m => insert sorted m.1 m.2) [] := rfl

theorem mem_of_mem_foldl_insert {members sorted : List (String × Json)} {m : String × Json}
    (h : m ∈ members.foldl (fun sorted m => insert sorted m.1 m.2) sorted)
    : m ∈ sorted ∨ m ∈ members := by
  induction members generalizing sorted with
  | nil => exact .inl h
  | cons first members ih =>
    rw [List.mem_cons]
    rcases ih h with h | h
    . rcases mem_insert h with h | h
      . exact .inr (.inl h)
      . exact .inl h
    . exact .inr (.inr h)

theorem mem_of_mem_ofMembers {members : List (String × Json)} {m : String × Json}
    (h : m ∈ ofMembers members) : m ∈ members := by
  rw [ofMembers_eq_foldl] at h
  exact (mem_of_mem_foldl_insert h).resolve_left List.not_mem_nil

theorem isSorted_foldl_insert {sorted : List (String × Json)} (h : IsSorted sorted)
    (members : List (String × Json))
    : IsSorted (members.foldl (fun sorted m => insert sorted m.1 m.2) sorted) := by
  induction members generalizing sorted with
  | nil => exact h
  | cons first members ih => exact ih (isSorted_insert h first.1 first.2)

theorem isSorted_ofMembers (members : List (String × Json)) : IsSorted (ofMembers members) :=
  isSorted_foldl_insert List.Pairwise.nil members

theorem foldl_insert_of_isSorted {sorted members : List (String × Json)}
    (h : IsSorted (sorted ++ members))
    : members.foldl (fun sorted m => insert sorted m.1 m.2) sorted = sorted ++ members := by
  induction members generalizing sorted with
  | nil =>
    rw [List.append_nil]
    rfl
  | cons first members ih =>
    have hlt : ∀ m ∈ sorted, m.1 < first.1 := by
      intro m hm
      exact (List.pairwise_append.mp h).2.2 m hm first List.mem_cons_self
    rw [List.append_cons] at h
    rw [List.foldl_cons, insert_of_forall_lt hlt, ih h, ← List.append_cons]

theorem ofMembers_of_isSorted {members : List (String × Json)} (h : IsSorted members)
    : ofMembers members = members := by
  rw [ofMembers_eq_foldl]
  exact foldl_insert_of_isSorted h

/--
A value for which there is room, with its members in order.
-/
structure Fits (v : Json) (room : Nat) : Prop where
  depth : v.depth ≤ room
  ordered : v.IsOrdered

mutual

theorem value?_toDocument {v : Json} {room : Nat} (hdepth : v.depth ≤ room) (hordered : v.IsOrdered)
    : v.toDocument.value? room = some v := by
  cases v with
  | array items =>
    rw [depth] at hdepth
    rw [IsOrdered] at hordered
    match room with
    | room + 1 =>
      rw [toDocument, Document.value?, values?_itemsToDocuments (by omega) hordered]
      rfl
  | object members =>
    rw [depth] at hdepth
    rw [IsOrdered] at hordered
    match room with
    | room + 1 =>
      rw [toDocument, Document.value?, memberValues?_membersToDocuments (by omega) hordered.2]
      simp [ofMembers_of_isSorted hordered.1]
  | _ => rfl

theorem values?_itemsToDocuments {vs : List Json} {room : Nat} (hdepth : itemsDepth vs ≤ room)
    (hordered : AreOrdered vs)
    : Document.values? room (itemsToDocuments vs) = some vs := by
  match vs with
  | [] => rfl
  | v :: vs =>
    rw [itemsDepth, Nat.max_le] at hdepth
    rw [AreOrdered] at hordered
    rw [itemsToDocuments, Document.values?, value?_toDocument hdepth.1 hordered.1]
    rw [values?_itemsToDocuments hdepth.2 hordered.2]
    rfl

theorem memberValues?_membersToDocuments {members : List (String × Json)} {room : Nat}
    (hdepth : membersDepth members ≤ room) (hordered : HaveOrdered members)
    : Document.memberValues? room (membersToDocuments members) = some members := by
  match members with
  | [] => rfl
  | (k, v) :: members =>
    rw [membersDepth, Nat.max_le] at hdepth
    rw [HaveOrdered] at hordered
    rw [membersToDocuments, Document.memberValues?, value?_toDocument hdepth.1 hordered.1]
    rw [memberValues?_membersToDocuments hdepth.2 hordered.2]
    rfl

end

mutual

theorem fits_of_value? {d : Document} {room : Nat} {v : Json} (h : d.value? room = some v)
    : v.Fits room := by
  cases d with
  | array items closed =>
    match room with
    | 0 => cases h
    | room + 1 =>
      rw [Document.value?] at h
      split at h
      . rw [Option.map_eq_some_iff] at h
        rcases h with ⟨vs, hvs, rfl⟩
        have ⟨hdepth, hordered⟩ := fits_of_values? hvs
        exact ⟨by rw [depth]; omega, hordered⟩
      . cases h
  | object members closed =>
    match room with
    | 0 => cases h
    | room + 1 =>
      rw [Document.value?] at h
      split at h
      . rw [Option.map_eq_some_iff] at h
        rcases h with ⟨values, hvalues, rfl⟩
        have hfits : ∀ m ∈ ofMembers values, m.2.Fits room := by
          intro m hm
          exact fits_of_memberValues? hvalues m (mem_of_mem_ofMembers hm)
        have hdepth : membersDepth (ofMembers values) ≤ room := by
          rw [membersDepth_le_iff]
          intro m hm
          exact (hfits m hm).depth
        have hordered : HaveOrdered (ofMembers values) := by
          rw [haveOrdered_iff]
          intro m hm
          exact (hfits m hm).ordered
        exact ⟨Nat.succ_le_succ hdepth, isSorted_ofMembers values, hordered⟩
      . cases h
  | number value =>
    rw [Document.value?, Option.map_eq_some_iff] at h
    rcases h with ⟨n, _, rfl⟩
    exact ⟨Nat.zero_le room, trivial⟩
  | string text =>
    rw [Document.value?, Option.map_eq_some_iff] at h
    rcases h with ⟨s, _, rfl⟩
    exact ⟨Nat.zero_le room, trivial⟩
  | null | bool b =>
    cases h
    exact ⟨Nat.zero_le room, trivial⟩
  | broken => cases h

theorem fits_of_values? {ds : List Document} {room : Nat} {vs : List Json}
    (h : Document.values? room ds = some vs) : itemsDepth vs ≤ room ∧ AreOrdered vs := by
  match ds with
  | [] =>
    cases h
    exact ⟨Nat.zero_le room, trivial⟩
  | d :: ds =>
    simp only [Document.values?, Option.bind_eq_bind, Option.bind_eq_some_iff] at h
    rcases h with ⟨v, hv, vs, hvs, heq⟩
    cases heq
    have hfirst := fits_of_value? hv
    have hrest := fits_of_values? hvs
    exact ⟨Nat.max_le.mpr ⟨hfirst.depth, hrest.1⟩, hfirst.ordered, hrest.2⟩

theorem fits_of_memberValues? {ms : List (Option String × Document)} {room : Nat}
    {values : List (String × Json)} (h : Document.memberValues? room ms = some values)
    : ∀ m ∈ values, m.2.Fits room := by
  match ms with
  | [] =>
    cases h
    intro m hm
    exact absurd hm List.not_mem_nil
  | (none, d) :: ms => cases h
  | (some k, d) :: ms =>
    simp only [Document.memberValues?, Option.bind_eq_bind, Option.bind_eq_some_iff] at h
    rcases h with ⟨v, hv, rest, hrest, heq⟩
    cases heq
    rw [List.forall_mem_cons]
    exact ⟨fits_of_value? hv, fits_of_memberValues? hrest⟩

end

mutual

theorem isIntact_toDocument (v : Json) : v.toDocument.isIntact := by
  cases v with
  | array items => exact areIntact_itemsToDocuments items
  | object members => exact areIntactMembers_membersToDocuments members
  | _ => rfl

theorem areIntact_itemsToDocuments (vs : List Json)
    : Document.areIntact (itemsToDocuments vs) := by
  match vs with
  | [] => rfl
  | v :: vs =>
    rw [itemsToDocuments, Document.areIntact, Bool.and_eq_true]
    exact ⟨isIntact_toDocument v, areIntact_itemsToDocuments vs⟩

theorem areIntactMembers_membersToDocuments (members : List (String × Json))
    : Document.areIntactMembers (membersToDocuments members) := by
  match members with
  | [] => rfl
  | (k, v) :: members =>
    rw [membersToDocuments, Document.areIntactMembers, Bool.and_eq_true]
    exact ⟨isIntact_toDocument v, areIntactMembers_membersToDocuments members⟩

end

theorem asValue_toDocument {v : Json} {room : Nat} (h : v.Fits room)
    : Document.asValue room v.toDocument = .ok v := by
  unfold Document.asValue
  rw [value?_toDocument h.depth h.ordered]

theorem fits_of_asValue {d : Document} {room : Nat} {v : Json}
    (h : Document.asValue room d = .ok v) : v.Fits room := by
  unfold Document.asValue at h
  split at h
  . next value hvalue =>
    cases h
    exact fits_of_value? hvalue
  . cases h

end Json

end FormLogic
