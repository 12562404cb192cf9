import FormLogic.Proofs.Json.Record
import Mathlib.Data.List.Basic
import Mathlib.Data.List.Pairwise

/-!
This module contains the proof that it does not matter in which order the members of a record are
written. It rests on slots that do not touch one another. So the members can be put into the order
of the slots.
-/

namespace FormLogic

namespace Slot

variable {δ : Type}

structure IsIndependent (a b : Slot δ) : Prop where
  key_ne : a.key ≠ b.key
  left : ∀ room d draft next, a.fill room d draft = .ok next → b.isFilled next = b.isFilled draft
  right : ∀ room d draft next, b.fill room d draft = .ok next → a.isFilled next = a.isFilled draft
  comm : ∀ room d e draft next,
    (∃ mid, a.fill room d draft = .ok mid ∧ b.fill room e mid = .ok next)
      ↔
    ∃ mid, b.fill room e draft = .ok mid ∧ a.fill room d mid = .ok next

theorem IsIndependent.symm {a b : Slot δ} (h : a.IsIndependent b) : b.IsIndependent a :=
  ⟨h.key_ne.symm, h.right, h.left, fun room d e draft next => (h.comm room e d draft next).symm⟩

instance : Std.Symm (@IsIndependent δ) := ⟨fun _ _ h => h.symm⟩

section ofMember

variable {α β : Type} {key key' : String} {required required' : Bool}
  {read : Nat → Document → Except Fault α} {read' : Nat → Document → Except Fault β}
  {get : δ → Option α} {get' : δ → Option β} {set : δ → α → δ} {set' : δ → β → δ}

theorem isIndependent_ofMember (hkey : key ≠ key')
    (hleft : ∀ draft v, get' (set draft v) = get' draft)
    (hright : ∀ draft w, get (set' draft w) = get draft)
    (hcomm : ∀ draft v w, set' (set draft v) w = set (set' draft w) v)
    : (ofMember key required read get set).IsIndependent
        (ofMember key' required' read' get' set') := by
  constructor
  . exact hkey
  . intro room d draft next hfill
    rw [fill_ofMember_eq_ok_iff] at hfill
    rcases hfill with ⟨v, _, rfl⟩
    exact congrArg Option.isSome (hleft draft v)
  . intro room d draft next hfill
    rw [fill_ofMember_eq_ok_iff] at hfill
    rcases hfill with ⟨w, _, rfl⟩
    exact congrArg Option.isSome (hright draft w)
  . intro room d e draft next
    simp only [fill_ofMember_eq_ok_iff]
    constructor
    . intro h
      rcases h with ⟨_, ⟨v, hv, rfl⟩, w, hw, rfl⟩
      exact ⟨_, ⟨w, hw, rfl⟩, v, hv, (hcomm draft v w).symm⟩
    . intro h
      rcases h with ⟨_, ⟨w, hw, rfl⟩, v, hv, rfl⟩
      exact ⟨_, ⟨v, hv, rfl⟩, w, hw, hcomm draft v w⟩

theorem isFilled_of_fill_ofMember (h : ∀ draft v, get (set draft v) = some v) (room : Nat)
    (d : Document) (draft next : δ)
    (hfill : (ofMember key required read get set).fill room d draft = .ok next)
    : (ofMember key required read get set).isFilled next = true := by
  rw [fill_ofMember_eq_ok_iff] at hfill
  rcases hfill with ⟨v, _, rfl⟩
  exact congrArg Option.isSome (h draft v)

end ofMember

end Slot

namespace RecordForm

variable {δ ρ : Type}

/--
A form whose slots are independent of one another, and in which an absent member may be written with
a default, unless it is the last one.
-/
structure IsLawful (form : RecordForm δ ρ) (default : String → Document) : Prop where
  independent : form.slots.Pairwise Slot.IsIndependent
  blank : ∀ slot ∈ form.slots, slot.isFilled form.blank = false
  filled : ∀ slot ∈ form.slots, ∀ room d draft next,
    slot.fill room d draft = .ok next → slot.isFilled next = true
  required : ∀ slot ∈ form.slots, slot.required = true → ∀ draft record,
    form.finish draft = .ok record → slot.isFilled draft = true
  default : ∀ slot ∈ form.slots.dropLast, slot.required = false → ∀ room draft,
    slot.isFilled draft = false → ∃ next, slot.fill (room + 1) (default slot.key) draft = .ok next
      ∧ form.finish next = form.finish draft

variable {form : RecordForm δ ρ} {default : String → Document} {room : Nat}

theorem slot?_eq_some {key : String} {slot : Slot δ} (h : form.slot? key = some slot)
    : slot ∈ form.slots ∧ slot.key = key := by
  refine ⟨List.mem_of_find?_eq_some h, ?_⟩
  have hkey := List.find?_some h
  exact eq_of_beq hkey

theorem IsLawful.eq_of_key (h : form.IsLawful default) {a b : Slot δ} (ha : a ∈ form.slots)
    (hb : b ∈ form.slots) (hkey : a.key = b.key) : a = b := by
  apply Classical.byContradiction
  intro hne
  exact (h.independent.forall ha hb hne).key_ne hkey

theorem IsLawful.nodup (h : form.IsLawful default) : form.slots.Nodup := by
  apply h.independent.imp
  intro a b hindependent heq
  exact hindependent.key_ne (congrArg Slot.key heq)

theorem IsLawful.slot?_key (h : form.IsLawful default) {slot : Slot δ} (hmem : slot ∈ form.slots)
    : form.slot? slot.key = some slot := by
  cases hfound : form.slot? slot.key with
  | none =>
    have hnone := List.find?_eq_none.mp hfound slot hmem
    exact absurd BEq.rfl hnone
  | some found =>
    rcases slot?_eq_some hfound with ⟨hfoundMem, hkey⟩
    rw [h.eq_of_key hfoundMem hmem hkey]

inductive Takes (form : RecordForm δ ρ) (room : Nat)
    : Option String × Document → δ → δ → Prop where
  | filled {key : String} {d : Document} {slot : Slot δ} {draft next : δ}
    (hslot : form.slot? key = some slot) (hfree : slot.isFilled draft = false)
    (hfill : slot.fill room d draft = .ok next) : Takes form room (some key, d) draft next
  | passed {key : String} {d : Document} {draft : δ} (hslot : form.slot? key = none)
    (hintact : d.isIntact) : Takes form room (some key, d) draft draft

theorem fillMembers_cons_iff {m : Option String × Document}
    {members : List (Option String × Document)} {draft next : δ}
    : form.fillMembers room (m :: members) draft = .ok next
        ↔
      ∃ mid, form.Takes room m draft mid ∧ form.fillMembers room members mid = .ok next := by
  rcases m with ⟨_ | key, d⟩
  . constructor
    . intro h
      cases h
    . intro h
      rcases h with ⟨mid, htakes, _⟩
      cases htakes
  . rw [fillMembers]
    constructor
    . intro h
      split at h
      . next slot hslot =>
        split at h
        . cases h
        . next hfree =>
          rw [Document.bind_eq_ok_iff] at h
          rcases h with ⟨mid, hfill, hrest⟩
          exact ⟨mid, .filled hslot ((Bool.not_eq_true _).mp hfree) hfill, hrest⟩
      . next hslot =>
        split at h
        . next hintact => exact ⟨draft, .passed hslot hintact, h⟩
        . cases h
    . intro h
      rcases h with ⟨mid, htakes, hrest⟩
      cases htakes with
      | filled hslot hfree hfill =>
        rw [hslot]
        dsimp only
        rw [hfree, hfill]
        exact hrest
      | passed hslot hintact =>
        rw [hslot]
        dsimp only
        rw [if_pos hintact]
        exact hrest

theorem fillMembers_append_iff {front back : List (Option String × Document)} {draft next : δ}
    : form.fillMembers room (front ++ back) draft = .ok next
        ↔
      ∃ mid, form.fillMembers room front draft = .ok mid
        ∧ form.fillMembers room back mid = .ok next := by
  induction front generalizing draft with
  | nil => simp [fillMembers]
  | cons m front ih =>
    rw [List.cons_append, fillMembers_cons_iff]
    simp only [fillMembers_cons_iff, ih]
    constructor
    . intro h
      rcases h with ⟨first, hfirst, mid, hmid, hnext⟩
      exact ⟨mid, ⟨first, hfirst, hmid⟩, hnext⟩
    . intro h
      rcases h with ⟨mid, ⟨first, hfirst, hmid⟩, hnext⟩
      exact ⟨first, hfirst, mid, hmid, hnext⟩

theorem IsLawful.takes_swap (h : form.IsLawful default) {m m' : Option String × Document}
    {draft mid next : δ} (hfirst : form.Takes room m draft mid)
    (hsecond : form.Takes room m' mid next)
    : ∃ mid', form.Takes room m' draft mid' ∧ form.Takes room m mid' next := by
  cases hfirst with
  | passed hslot hintact => exact ⟨next, hsecond, .passed hslot hintact⟩
  | @filled key d slot _ _ hslot hfree hfill =>
    cases hsecond with
    | passed hslot' hintact =>
      exact ⟨draft, .passed hslot' hintact, .filled hslot hfree hfill⟩
    | @filled key' d' slot' _ _ hslot' hfree' hfill' =>
      have hmem := (slot?_eq_some hslot).1
      have hmem' := (slot?_eq_some hslot').1
      have hne : slot ≠ slot' := by
        intro heq
        rw [← heq, h.filled slot hmem room d draft mid hfill] at hfree'
        cases hfree'
      have hindependent := h.independent.forall hmem hmem' hne
      rcases (hindependent.comm room d d' draft next).mp ⟨mid, hfill, hfill'⟩ with
        ⟨mid', hfill₁, hfill₂⟩
      refine ⟨mid', .filled hslot' ?_ hfill₁, .filled hslot ?_ hfill₂⟩
      . rw [← hindependent.left room d draft mid hfill]
        exact hfree'
      . rw [hindependent.right room d' draft mid' hfill₁]
        exact hfree

theorem IsLawful.fillMembers_perm (h : form.IsLawful default)
    {members members' : List (Option String × Document)} (hperm : members.Perm members')
    {draft next : δ} (hfill : form.fillMembers room members draft = .ok next)
    : form.fillMembers room members' draft = .ok next := by
  induction hperm generalizing draft with
  | nil => exact hfill
  | cons m _ ih =>
    rw [fillMembers_cons_iff] at hfill ⊢
    rcases hfill with ⟨mid, htakes, hrest⟩
    exact ⟨mid, htakes, ih hrest⟩
  | swap m m' members =>
    simp only [fillMembers_cons_iff] at hfill ⊢
    rcases hfill with ⟨mid, hfirst, _, hsecond, hrest⟩
    rcases h.takes_swap hfirst hsecond with ⟨mid', hfirst', hsecond'⟩
    exact ⟨mid', hfirst', _, hsecond', hrest⟩
  | trans _ _ ih ih' => exact ih' (ih hfill)

theorem IsLawful.takes_key_iff (h : form.IsLawful default) {slot : Slot δ}
    (hmem : slot ∈ form.slots) {d : Document} {draft next : δ}
    : form.Takes room (some slot.key, d) draft next
        ↔
      slot.isFilled draft = false ∧ slot.fill room d draft = .ok next := by
  have hkey := h.slot?_key hmem
  constructor
  . intro htakes
    cases htakes with
    | filled hslot hfree hfill =>
      rw [hkey] at hslot
      cases hslot
      exact ⟨hfree, hfill⟩
    | passed hslot _ =>
      rw [hkey] at hslot
      cases hslot
  . intro hboth
    exact .filled hkey hboth.1 hboth.2

theorem IsLawful.isFilled_of_takes (h : form.IsLawful default) {slot : Slot δ}
    (hmem : slot ∈ form.slots) {m : Option String × Document} (hkey : m.1 ≠ some slot.key)
    {draft next : δ} (htakes : form.Takes room m draft next)
    : slot.isFilled next = slot.isFilled draft := by
  cases htakes with
  | passed hslot _ => rfl
  | @filled key d other _ _ hslot _ hfill =>
    rcases slot?_eq_some hslot with ⟨hother, hotherKey⟩
    have hne : other ≠ slot := by
      intro heq
      rw [← hotherKey, heq] at hkey
      exact hkey rfl
    exact (h.independent.forall hother hmem hne).left room d draft next hfill

theorem IsLawful.isFilled_of_fillMembers (h : form.IsLawful default) {slot : Slot δ}
    (hmem : slot ∈ form.slots) {members : List (Option String × Document)}
    (habsent : members.lookup (some slot.key) = none) {draft next : δ}
    (hfill : form.fillMembers room members draft = .ok next)
    : slot.isFilled next = slot.isFilled draft := by
  induction members generalizing draft with
  | nil =>
    cases hfill
    rfl
  | cons m members ih =>
    rw [fillMembers_cons_iff] at hfill
    rcases hfill with ⟨mid, htakes, hrest⟩
    rw [List.lookup_eq_none_iff, List.forall_mem_cons] at habsent
    have hkey : m.1 ≠ some slot.key := (bne_iff_ne.mp habsent.1).symm
    rw [ih (List.lookup_eq_none_iff.mpr habsent.2) hrest]
    exact h.isFilled_of_takes hmem hkey htakes

theorem IsLawful.lookup_eq_none_of_isFilled (h : form.IsLawful default) {slot : Slot δ}
    (hmem : slot ∈ form.slots) {members : List (Option String × Document)} {draft next : δ}
    (hfilled : slot.isFilled draft = true)
    (hfill : form.fillMembers room members draft = .ok next)
    : members.lookup (some slot.key) = none := by
  induction members generalizing draft with
  | nil => rfl
  | cons m members ih =>
    rw [fillMembers_cons_iff] at hfill
    rcases hfill with ⟨mid, htakes, hrest⟩
    have hkey : m.1 ≠ some slot.key := by
      intro heq
      rcases m with ⟨key, d⟩
      cases heq
      rw [h.takes_key_iff hmem, hfilled] at htakes
      cases htakes.1
    rw [← h.isFilled_of_takes hmem hkey htakes] at hfilled
    rw [List.lookup_eq_none_iff, List.forall_mem_cons]
    exact ⟨bne_iff_ne.mpr hkey.symm, List.lookup_eq_none_iff.mp (ih hfilled hrest)⟩

theorem eq_of_unknown {members : List (Option String × Document)}
    (hunknown : ∀ slot ∈ form.slots, members.lookup (some slot.key) = none) {draft next : δ}
    (hfill : form.fillMembers room members draft = .ok next) : next = draft := by
  induction members generalizing draft with
  | nil =>
    cases hfill
    rfl
  | cons m members ih =>
    rw [fillMembers_cons_iff] at hfill
    rcases hfill with ⟨mid, htakes, hrest⟩
    simp only [List.lookup_eq_none_iff, List.forall_mem_cons] at hunknown ih
    cases htakes with
    | filled hslot _ _ =>
      rcases slot?_eq_some hslot with ⟨hmem, hkey⟩
      have hne := (hunknown _ hmem).1
      rw [hkey] at hne
      exact absurd rfl (bne_iff_ne.mp hne)
    | passed _ _ => exact ih (fun slot hmem => (hunknown slot hmem).2) hrest

def inOrder (slots : List (Slot δ)) (members : List (Option String × Document))
    : List (Option String × Document) :=
  slots.filterMap fun slot => (members.lookup (some slot.key)).map (some slot.key, ·)

theorem IsLawful.fillMembers_inOrder (h : form.IsLawful default) {slots : List (Slot δ)}
    (hslots : slots ⊆ form.slots) (hnodup : slots.Nodup)
    {members : List (Option String × Document)}
    (hothers : ∀ slot ∈ form.slots, slot ∉ slots → members.lookup (some slot.key) = none)
    {draft next : δ} (hfill : form.fillMembers room members draft = .ok next)
    : form.fillMembers room (inOrder slots members) draft = .ok next := by
  induction slots generalizing members draft with
  | nil =>
    have hnext := eq_of_unknown (fun slot hmem => hothers slot hmem List.not_mem_nil) hfill
    rw [hnext]
    rfl
  | cons slot slots ih =>
    rcases List.cons_subset.mp hslots with ⟨hmem, hrest⟩
    rw [List.nodup_cons] at hnodup
    unfold inOrder
    cases hlookup : members.lookup (some slot.key) with
    | none =>
      rw [List.filterMap_cons_none (by rw [hlookup]; rfl)]
      refine ih hrest hnodup.2 ?_ hfill
      intro other hother hnot
      by_cases heq : other = slot
      . rw [heq]
        exact hlookup
      . exact hothers other hother (by simp [heq, hnot])
    | some d =>
      rw [List.filterMap_cons_some (by rw [hlookup]; rfl)]
      rcases List.lookup_eq_some_iff.mp hlookup with ⟨front, back, hmembers, _⟩
      subst hmembers
      have hmoved := h.fillMembers_perm List.perm_middle hfill
      rw [fillMembers_cons_iff] at hmoved ⊢
      rcases hmoved with ⟨mid, htakes, hmid⟩
      have hfilled := h.filled slot hmem room d draft mid ((h.takes_key_iff hmem).mp htakes).2
      -- Behind the slot that is filled first, the other slots find what they found before.
      have hgone := h.lookup_eq_none_of_isFilled hmem hfilled hmid
      have hkept : ∀ other ∈ form.slots, other ≠ slot →
          (front ++ (some slot.key, d) :: back).lookup (some other.key)
            = (front ++ back).lookup (some other.key) := by
        intro other hother hne
        have hkey : some other.key ≠ some slot.key := by
          intro heq
          exact hne (h.eq_of_key hother hmem (Option.some.inj heq))
        rw [List.lookup_append, List.lookup_append, List.lookup_cons, beq_eq_false_iff_ne.mpr hkey]
      have hsame : inOrder slots (front ++ (some slot.key, d) :: back)
          = inOrder slots (front ++ back) := by
        unfold inOrder
        apply List.filterMap_congr
        intro other hother
        rw [hkept other (hrest hother) fun heq => hnodup.1 (heq ▸ hother)]
      refine ⟨mid, htakes, ?_⟩
      refine (congrArg (form.fillMembers room · mid) hsame).trans ?_
      refine ih hrest hnodup.2 ?_ hmid
      intro other hother hnot
      by_cases heq : other = slot
      . rw [heq]
        exact hgone
      . rw [← hkept other hother heq]
        exact hothers other hother (by simp [heq, hnot])

end RecordForm

end FormLogic
