import FormLogic.Proofs.Json.Slots
import Mathlib.Data.List.DropRight

/-!
This module contains the proof that it does not matter how a record is laid out: in which order its
members are written, which further members are between them, and whether it is written as an object
or as an array. An array has no place for what is absent before its last item, so a default is
written there.
-/

namespace FormLogic

namespace Document

theorem isIntact_array_iff {items : List Document} {closed : Bool}
    : (array items closed).isIntact ↔ closed = true ∧ ∀ item ∈ items, item.isIntact := by
  have hitems : areIntact items ↔ ∀ item ∈ items, item.isIntact := by
    induction items with
    | nil => simp [areIntact]
    | cons item items ih => simp [areIntact, ih]
  rw [isIntact, Bool.and_eq_true, hitems]

theorem isIntact_object_iff {members : List (Option String × Document)} {closed : Bool}
    : (object members closed).isIntact ↔ closed = true ∧ ∀ m ∈ members, m.2.isIntact := by
  have hmembers : areIntactMembers members ↔ ∀ m ∈ members, m.2.isIntact := by
    induction members with
    | nil => simp [areIntactMembers]
    | cons m members ih =>
      rw [areIntactMembers, Bool.and_eq_true, List.forall_mem_cons, ih]
  rw [isIntact, Bool.and_eq_true, hmembers]

theorem isIntact_array_replaced {item item' : Document} (h : item.isIntact → item'.isIntact)
    {front back : List Document} {closed : Bool}
    (hintact : (array (front ++ item :: back) closed).isIntact)
    : (array (front ++ item' :: back) closed).isIntact := by
  simp only [isIntact_array_iff, List.forall_mem_append, List.forall_mem_cons] at hintact ⊢
  exact ⟨hintact.1, hintact.2.1, h hintact.2.2.1, hintact.2.2.2⟩

theorem asList_replaced {α : Type} {item : Nat → Document → Except Fault α} {room : Nat}
    {d d' : Document} (h : ∀ value, item room d = .ok value → item room d' = .ok value)
    {front back : List Document} {values : List α}
    (hlist : asList item (room + 1) (.array (front ++ d :: back) true) = .ok values)
    : asList item (room + 1) (.array (front ++ d' :: back) true) = .ok values := by
  rw [asList_eq_ok_iff] at hlist ⊢
  rcases hlist with ⟨_, heq, hitems⟩
  cases heq
  refine ⟨_, rfl, ?_⟩
  rw [mapM_eq_ok_iff] at hitems ⊢
  induction front generalizing values with
  | nil =>
    rw [List.nil_append, List.forall₂_cons_left_iff] at hitems ⊢
    rcases hitems with ⟨value, rest, hvalue, hrest, rfl⟩
    exact ⟨value, rest, h value hvalue, hrest, rfl⟩
  | cons first front ih =>
    rw [List.cons_append, List.forall₂_cons_left_iff] at hitems ⊢
    rcases hitems with ⟨value, rest, hvalue, hrest, rfl⟩
    exact ⟨value, rest, hvalue, ih hrest, rfl⟩

end Document

namespace RecordForm

variable {δ ρ : Type} {form : RecordForm δ ρ} {default : String → Document} {room : Nat}

theorem lookup_defaults (slots : List (Slot δ)) (default : String → Document) (key : String)
    : (slots.map fun slot => (some slot.key, default slot.key)).lookup (some key)
        =
      if key ∈ slots.map (·.key) then some (default key) else none := by
  induction slots with
  | nil => rfl
  | cons slot slots ih =>
    rw [List.map_cons, List.map_cons]
    by_cases hkey : key = slot.key
    . rw [hkey, List.lookup_cons_self, if_pos List.mem_cons_self]
    . have hne : some key ≠ some slot.key := fun heq => hkey (Option.some.inj heq)
      rw [List.lookup_cons, beq_eq_false_iff_ne.mpr hne]
      simp only [ih, List.mem_cons, hkey, false_or]

theorem IsLawful.exists_fillMembers_defaults (h : form.IsLawful default) {slots : List (Slot δ)}
    (hslots : slots ⊆ form.slots.dropLast) (hnodup : slots.Nodup)
    (hoptional : ∀ slot ∈ slots, slot.required = false) {draft : δ}
    (hfree : ∀ slot ∈ slots, slot.isFilled draft = false)
    : ∃ next, form.fillMembers (room + 1) (slots.map fun slot => (some slot.key, default slot.key))
          draft = .ok next
        ∧ form.finish next = form.finish draft := by
  induction slots generalizing draft with
  | nil => exact ⟨draft, rfl, rfl⟩
  | cons slot slots ih =>
    rcases List.cons_subset.mp hslots with ⟨hslot, hrest⟩
    rw [List.nodup_cons] at hnodup
    rw [List.forall_mem_cons] at hoptional hfree
    have hmem := List.dropLast_subset _ hslot
    rcases h.default slot hslot hoptional.1 room draft hfree.1 with ⟨mid, hfill, hfinish⟩
    have hmid : ∀ other ∈ slots, other.isFilled mid = false := by
      intro other hother
      have hne : slot ≠ other := fun heq => hnodup.1 (heq ▸ hother)
      have hothermem := List.dropLast_subset _ (hrest hother)
      rw [(h.independent.forall hmem hothermem hne).left _ _ _ _ hfill]
      exact hfree.2 other hother
    rcases ih hrest hnodup.2 hoptional.2 hmid with ⟨next, hnext, hfinishNext⟩
    refine ⟨next, ?_, hfinishNext.trans hfinish⟩
    rw [List.map_cons, fillMembers_cons_iff]
    exact ⟨mid, (h.takes_key_iff hmem).mpr ⟨hfree.1, hfill⟩, hnext⟩

def kept (form : RecordForm δ ρ) (members : List (Option String × Document)) : List (Slot δ) :=
  form.slots.rdropWhile fun slot => (members.lookup (some slot.key)).isNone

/--
The items of an array that stands for the members of an object. Behind the last member with a slot
there are none, and before it an absent member is written as its default.
-/
def listed (form : RecordForm δ ρ) (default : String → Document)
    (members : List (Option String × Document)) : List Document :=
  (form.kept members).map fun slot =>
    (members.lookup (some slot.key)).getD (default slot.key)

def gaps (form : RecordForm δ ρ) (members : List (Option String × Document)) : List (Slot δ) :=
  (form.kept members).filter fun slot => (members.lookup (some slot.key)).isNone

theorem exists_slots_eq_kept_append (form : RecordForm δ ρ)
    (members : List (Option String × Document))
    : ∃ rest, form.slots = form.kept members ++ rest
        ∧ ∀ slot ∈ rest, members.lookup (some slot.key) = none := by
  refine ⟨_, List.rdropWhile_append_rtakeWhile.symm, ?_⟩
  intro slot hmem
  have habsent := List.mem_rtakeWhile_imp hmem
  exact Option.isNone_iff_eq_none.mp habsent

theorem gaps_subset (form : RecordForm δ ρ) (members : List (Option String × Document))
    : form.gaps members ⊆ form.slots.dropLast := by
  intro slot hmem
  rw [gaps, List.mem_filter] at hmem
  have hne := List.ne_nil_of_mem hmem.1
  have hinit : slot ∈ (form.kept members).dropLast := by
    have hparts := hmem.1
    rw [← List.dropLast_append_getLast hne, List.mem_append, List.mem_singleton] at hparts
    cases hparts with
    | inl hinit => exact hinit
    | inr hlast =>
      have hpresent : ¬(members.lookup (some ((form.kept members).getLast hne).key)).isNone :=
        List.rdropWhile_last_not _ _ hne
      rw [← hlast] at hpresent
      exact absurd hmem.2 hpresent
  rcases form.exists_slots_eq_kept_append members with ⟨rest, heq, _⟩
  rw [heq]
  cases rest with
  | nil =>
    rw [List.append_nil]
    exact hinit
  | cons last rest =>
    rw [List.dropLast_append_cons]
    exact List.mem_append_left _ hmem.1

theorem inOrder_kept (form : RecordForm δ ρ) (default : String → Document)
    (members : List (Option String × Document))
    : inOrder (form.kept members) (members
          ++ (form.gaps members).map fun slot => (some slot.key, default slot.key))
        =
      (form.kept members).map fun slot =>
        (some slot.key, (members.lookup (some slot.key)).getD (default slot.key)) := by
  unfold inOrder
  refine (List.filterMap_congr ?_).trans (congrFun List.filterMap_eq_map _)
  intro slot hmem
  rw [Function.comp_apply, List.lookup_append, lookup_defaults]
  cases hlookup : members.lookup (some slot.key) with
  | some d => rfl
  | none =>
    have hgap : slot ∈ form.gaps members := List.mem_filter.mpr ⟨hmem, by rw [hlookup]; rfl⟩
    rw [if_pos (List.mem_map_of_mem hgap)]
    rfl

theorem IsLawful.fillItems_of_fillMembers (h : form.IsLawful default) {front back : List (Slot δ)}
    (hfront : front ⊆ form.slots) (hback : ∀ slot ∈ back, slot.required = false)
    (value : Slot δ → Document) {index : Nat} {draft next : δ}
    (hfill : form.fillMembers room (front.map fun slot => (some slot.key, value slot)) draft
      = .ok next)
    : form.fillItems room true index (front ++ back) (front.map value) draft = .ok next := by
  induction front generalizing index draft with
  | nil =>
    cases hfill
    rw [List.nil_append, List.map_nil]
    induction back generalizing index with
    | nil => rfl
    | cons slot back ih =>
      rw [List.forall_mem_cons] at hback
      rw [fillItems, if_neg (by decide), hback.1]
      exact ih hback.2
  | cons slot front ih =>
    rcases List.cons_subset.mp hfront with ⟨hmem, hrest⟩
    rw [List.map_cons, fillMembers_cons_iff] at hfill
    rcases hfill with ⟨mid, htakes, hmid⟩
    rw [List.cons_append, List.map_cons, fillItems, Document.bind_eq_ok_iff]
    exact ⟨mid, ((h.takes_key_iff hmem).mp htakes).2, ih hrest hmid⟩

theorem IsLawful.of_absent (h : form.IsLawful default) {slot : Slot δ} (hmem : slot ∈ form.slots)
    {members : List (Option String × Document)}
    (habsent : members.lookup (some slot.key) = none) {draft : δ} {record : ρ}
    (hfill : form.fillMembers room members form.blank = .ok draft)
    (hfinish : form.finish draft = .ok record)
    : slot.required = false ∧ slot.isFilled draft = false := by
  have hfree : slot.isFilled draft = false := by
    rw [h.isFilled_of_fillMembers hmem habsent hfill]
    exact h.blank slot hmem
  refine ⟨?_, hfree⟩
  rw [← Bool.not_eq_true]
  intro hrequired
  have hfilled := h.required slot hmem hrequired draft record hfinish
  rw [hfree] at hfilled
  cases hfilled

theorem IsLawful.fillMembers_kept (h : form.IsLawful default)
    {members : List (Option String × Document)} {draft : δ} {record : ρ}
    (hfill : form.fillMembers (room + 1) members form.blank = .ok draft)
    (hfinish : form.finish draft = .ok record)
    : ∃ next, form.fillMembers (room + 1) ((form.kept members).map fun slot =>
          (some slot.key, (members.lookup (some slot.key)).getD (default slot.key))) form.blank
          = .ok next
        ∧ form.finish next = .ok record := by
  rcases form.exists_slots_eq_kept_append members with ⟨rest, hslots, hrest⟩
  have hkept : form.kept members ⊆ form.slots := hslots ▸ List.subset_append_left _ _
  have hnodup : (form.kept members).Nodup :=
    h.nodup.sublist (List.rdropWhile_prefix _ _).sublist
  have hgap : ∀ slot ∈ form.gaps members,
      slot ∈ form.slots ∧ slot.required = false ∧ slot.isFilled draft = false := by
    intro slot hmem
    rcases List.mem_filter.mp hmem with ⟨hslot, habsent⟩
    have hnone := Option.isNone_iff_eq_none.mp habsent
    exact ⟨hkept hslot, h.of_absent (hkept hslot) hnone hfill hfinish⟩
  -- The defaults are added behind the members, and then the members are put into the order of the
  -- slots.
  rcases h.exists_fillMembers_defaults (form.gaps_subset members) (hnodup.filter _)
    (fun slot hmem => (hgap slot hmem).2.1) (fun slot hmem => (hgap slot hmem).2.2) with
    ⟨next, hnext, hfinishNext⟩
  refine ⟨next, ?_, hfinishNext.trans hfinish⟩
  rw [← form.inOrder_kept]
  refine h.fillMembers_inOrder hkept hnodup ?_ (fillMembers_append_iff.mpr ⟨draft, hfill, hnext⟩)
  intro slot hmem hnot
  have hrestmem : slot ∈ rest := by
    rw [hslots, List.mem_append] at hmem
    exact hmem.resolve_left hnot
  rw [List.lookup_append, hrest slot hrestmem, lookup_defaults, if_neg]
  . rfl
  . intro hkey
    rcases List.mem_map.mp hkey with ⟨other, hother, heq⟩
    have hsame := h.eq_of_key (hgap other hother).1 hmem heq
    exact hnot (hsame ▸ (List.mem_filter.mp hother).1)

theorem IsLawful.read_listed (h : form.IsLawful default)
    {members : List (Option String × Document)} {record : ρ}
    (hread : form.read (room + 2) (.object members true) = .ok record)
    : form.read (room + 2) (.array (form.listed default members) true) = .ok record := by
  rw [read_object_eq_ok_iff] at hread
  rcases hread with ⟨_, draft, hfill, hfinish⟩
  rcases h.fillMembers_kept hfill hfinish with ⟨next, hnext, hrecord⟩
  rcases form.exists_slots_eq_kept_append members with ⟨rest, hslots, hrest⟩
  have hkept : form.kept members ⊆ form.slots := hslots ▸ List.subset_append_left _ _
  have hoptional : ∀ slot ∈ rest, slot.required = false := by
    intro slot hmem
    have hslot : slot ∈ form.slots := hslots ▸ List.mem_append_right _ hmem
    exact (h.of_absent hslot (hrest slot hmem) hfill hfinish).1
  rw [read_array_eq_ok_iff, hslots]
  exact ⟨next, h.fillItems_of_fillMembers hkept hoptional _ hnext, hrecord⟩

inductive Relaid (form : RecordForm δ ρ) (default : String → Document)
    : Document → Document → Prop where
  | permuted {members members' : List (Option String × Document)} (h : members.Perm members')
    : Relaid form default (.object members true) (.object members' true)
  | inserted (front back : List (Option String × Document)) {key : String} {d : Document}
    (hkey : form.slot? key = none) (hintact : d.isIntact)
    : Relaid form default (.object (front ++ back) true)
        (.object (front ++ (some key, d) :: back) true)
  | listed (members : List (Option String × Document))
    : Relaid form default (.object members true) (.array (form.listed default members) true)

theorem IsLawful.read_of_relaid (h : form.IsLawful default) {d d' : Document}
    (hd : form.Relaid default d d') {record : ρ} (hread : form.read (room + 2) d = .ok record)
    : form.read (room + 2) d' = .ok record := by
  cases hd with
  | permuted hperm =>
    rw [read_object_eq_ok_iff] at hread ⊢
    rcases hread with ⟨hclosed, draft, hfill, hfinish⟩
    exact ⟨hclosed, draft, h.fillMembers_perm hperm hfill, hfinish⟩
  | inserted front back hkey hintact =>
    rw [read_object_eq_ok_iff] at hread ⊢
    rcases hread with ⟨hclosed, draft, hfill, hfinish⟩
    refine ⟨hclosed, draft, h.fillMembers_perm List.perm_middle.symm ?_, hfinish⟩
    rw [fillMembers_cons_iff]
    exact ⟨form.blank, .passed hkey hintact, hfill⟩
  | listed members => exact h.read_listed hread

theorem Relaid.isIntact {d d' : Document} (hdefault : ∀ key, (default key).isIntact)
    (hd : form.Relaid default d d') (h : d.isIntact) : d'.isIntact := by
  cases hd with
  | permuted hperm =>
    rw [Document.isIntact_object_iff] at h ⊢
    exact ⟨h.1, fun m hm => h.2 m (hperm.mem_iff.mpr hm)⟩
  | inserted front back hkey hintact =>
    rw [Document.isIntact_object_iff] at h ⊢
    refine ⟨h.1, ?_⟩
    intro m hm
    rw [List.perm_middle.mem_iff, List.mem_cons] at hm
    cases hm with
    | inl heq =>
      rw [heq]
      exact hintact
    | inr hm => exact h.2 m hm
  | listed members =>
    rw [Document.isIntact_object_iff] at h
    rw [Document.isIntact_array_iff]
    refine ⟨h.1, ?_⟩
    intro item hitem
    rcases List.mem_map.mp hitem with ⟨slot, _, rfl⟩
    cases hlookup : members.lookup (some slot.key) with
    | none => exact hdefault slot.key
    | some d =>
      rcases List.lookup_eq_some_iff.mp hlookup with ⟨front, back, heq, _⟩
      have hmem : (some slot.key, d) ∈ members := by
        rw [heq]
        exact List.mem_append_right _ List.mem_cons_self
      exact h.2 _ hmem

inductive Replaced (form : RecordForm δ ρ) (key : String) (v v' : Document)
    : Document → Document → Prop where
  | member (front back : List (Option String × Document)) (closed : Bool)
    : Replaced form key v v' (.object (front ++ (some key, v) :: back) closed)
        (.object (front ++ (some key, v') :: back) closed)
  | item (front back : List Document) (closed : Bool) {slot : Slot δ}
    (hslot : form.slots[front.length]? = some slot) (hkey : slot.key = key)
    : Replaced form key v v' (.array (front ++ v :: back) closed)
        (.array (front ++ v' :: back) closed)

theorem fillItems_replaced {slot : Slot δ} {v v' : Document}
    (hfill : ∀ draft next, slot.fill room v draft = .ok next → slot.fill room v' draft = .ok next)
    {front back : List Document} {slots : List (Slot δ)}
    (hslot : slots[front.length]? = some slot) {closed : Bool} {index : Nat} {draft next : δ}
    (h : form.fillItems room closed index slots (front ++ v :: back) draft = .ok next)
    : form.fillItems room closed index slots (front ++ v' :: back) draft = .ok next := by
  induction front generalizing slots index draft with
  | nil =>
    cases slots with
    | nil => cases hslot
    | cons first slots =>
      cases hslot
      rw [List.nil_append, fillItems, Document.bind_eq_ok_iff] at h ⊢
      rcases h with ⟨mid, hmid, hrest⟩
      exact ⟨mid, hfill draft mid hmid, hrest⟩
  | cons item front ih =>
    cases slots with
    | nil => cases hslot
    | cons first slots =>
      rw [List.cons_append, fillItems, Document.bind_eq_ok_iff] at h ⊢
      rcases h with ⟨mid, hmid, hrest⟩
      exact ⟨mid, hmid, ih hslot hrest⟩

theorem IsLawful.read_of_replaced (h : form.IsLawful default) {slot : Slot δ}
    (hmem : slot ∈ form.slots) {v v' : Document}
    (hfill : ∀ draft next, slot.fill room v draft = .ok next → slot.fill room v' draft = .ok next)
    {d d' : Document} (hd : form.Replaced slot.key v v' d d') {record : ρ}
    (hread : form.read (room + 1) d = .ok record) : form.read (room + 1) d' = .ok record := by
  cases hd with
  | member front back closed =>
    rw [read_object_eq_ok_iff] at hread ⊢
    rcases hread with ⟨hclosed, draft, hmembers, hfinish⟩
    refine ⟨hclosed, draft, ?_, hfinish⟩
    rw [fillMembers_append_iff] at hmembers ⊢
    rcases hmembers with ⟨first, hfront, hrest⟩
    rw [fillMembers_cons_iff] at hrest
    rcases hrest with ⟨mid, htakes, hback⟩
    rw [h.takes_key_iff hmem] at htakes
    refine ⟨first, hfront, fillMembers_cons_iff.mpr ⟨mid, ?_, hback⟩⟩
    exact (h.takes_key_iff hmem).mpr ⟨htakes.1, hfill first mid htakes.2⟩
  | item front back closed hslot hkey =>
    have hsame := h.eq_of_key (List.mem_of_getElem? hslot) hmem hkey
    rw [hsame] at hslot
    rw [read_array_eq_ok_iff] at hread ⊢
    rcases hread with ⟨draft, hitems, hfinish⟩
    exact ⟨draft, fillItems_replaced hfill hslot hitems, hfinish⟩

theorem Replaced.isIntact {key : String} {v v' d d' : Document}
    (hv : v.isIntact → v'.isIntact) (hd : form.Replaced key v v' d d') (h : d.isIntact)
    : d'.isIntact := by
  cases hd with
  | member front back closed =>
    simp only [Document.isIntact_object_iff, List.forall_mem_append, List.forall_mem_cons] at h ⊢
    exact ⟨h.1, h.2.1, hv h.2.2.1, h.2.2.2⟩
  | item front back closed _ _ => exact Document.isIntact_array_replaced hv h

end RecordForm

end FormLogic
