import FormLogic.Proofs.Json.Listed

/-!
This module contains what reading a record comes to. A member with a slot of its own is put into the
draft, and what every slot keeps true of the draft is true of it in the end, in whichever form and
order the members are written.
-/

namespace FormLogic

namespace Document

theorem asList_map_eq_ok {α : Type} {item : Nat → Document → Except Fault α} {room : Nat}
    {write : α → Document} {values : List α}
    (h : ∀ value ∈ values, item room (write value) = .ok value)
    : asList item (room + 1) (.array (values.map write) true) = .ok values := by
  rw [asList_eq_ok_iff]
  refine ⟨_, rfl, ?_⟩
  rw [mapM_eq_ok_iff, List.forall₂_map_left_iff]
  exact List.forall₂_same.mpr h

theorem exists_room_of_asList_eq_ok {α : Type} {item : Nat → Document → Except Fault α} {room : Nat}
    {d : Document} {values : List α} (h : asList item room d = .ok values)
    : ∃ room', room = room' + 1 := by
  unfold asList at h
  split at h
  . split at h
    . cases h
    . exact ⟨_, rfl⟩
  . cases h

theorem forall_mem_of_asList_eq_ok {α : Type} {item : Nat → Document → Except Fault α}
    {room : Nat} {P : α → Prop} (h : ∀ d value, item room d = .ok value → P value)
    {d : Document} {values : List α} (hlist : asList item (room + 1) d = .ok values)
    : ∀ value ∈ values, P value := by
  rw [asList_eq_ok_iff] at hlist
  rcases hlist with ⟨items, _, hitems⟩
  rw [mapM_eq_ok_iff] at hitems
  clear * - h hitems
  induction hitems with
  | nil =>
    intro value hvalue
    exact absurd hvalue List.not_mem_nil
  | cons hitem _ ih =>
    rw [List.forall_mem_cons]
    exact ⟨h _ _ hitem, ih⟩

theorem asOption_eq_ok_iff {α : Type} {read : Document → Except Fault α} {d : Document}
    {result : Option α}
    : asOption read d = .ok result
        ↔
      (d = .null ∧ result = none)
        ∨
      (d ≠ .null ∧ ∃ value, read d = .ok value ∧ result = some value) := by
  unfold asOption
  split
  . simp [eq_comm]
  . next hnull =>
    have hd : d ≠ .null := fun heq => hnull heq
    cases read d with
    | error fault => simp [hd]
    | ok value => simp [hd, eq_comm]

theorem asOption_eq_ok_some {α : Type} {read : Document → Except Fault α} {d : Document} {value : α}
    (hd : d ≠ .null) (h : read d = .ok value) : asOption read d = .ok (some value) := by
  rw [asOption_eq_ok_iff]
  exact .inr ⟨hd, value, h, rfl⟩

end Document

namespace Slot

variable {α δ : Type} {key : String} {required : Bool} {read : Nat → Document → Except Fault α}
  {get : δ → Option α} {set : δ → α → δ} {room : Nat}

theorem fill_ofMember_eq_ok_iff {d : Document} {draft next : δ}
    : (ofMember key required read get set).fill room d draft = .ok next
        ↔
      ∃ value, read room d = .ok value ∧ set draft value = next := by
  unfold ofMember
  dsimp only
  cases read room d with
  | error fault => simp
  | ok value => simp

def Keeps (slot : Slot δ) (room : Nat) (P : δ → Prop) : Prop :=
  ∀ d draft next, P draft → slot.fill room d draft = .ok next → P next

theorem keeps_ofMember {P : δ → Prop}
    (h : ∀ d draft value, P draft → read room d = .ok value → P (set draft value))
    : (ofMember key required read get set).Keeps room P := by
  intro d draft next hdraft hfill
  rw [fill_ofMember_eq_ok_iff] at hfill
  rcases hfill with ⟨value, hvalue, rfl⟩
  exact h d draft value hdraft hvalue

end Slot

theorem Mismatch.require_eq_ok_iff {α : Type} {key : String} {found : Option α} {value : α}
    : require key found = .ok value ↔ found = some value := by
  cases found with
  | none => simp [require]
  | some v => simp [require]

namespace RecordForm

variable {δ ρ : Type} {form : RecordForm δ ρ} {room : Nat}

theorem fillMembers_cons {α : Type} {key : String} {required : Bool}
    {read : Nat → Document → Except Fault α} {get : δ → Option α} {set : δ → α → δ}
    (hslot : form.slot? key = some (.ofMember key required read get set))
    {d : Document} {draft : δ} {value : α} (hget : get draft = none)
    (hread : read room d = .ok value) (members : List (Option String × Document))
    : form.fillMembers room ((some key, d) :: members) draft
        =
      form.fillMembers room members (set draft value) := by
  have hfill : (Slot.ofMember key required read get set).fill room d draft
      = .ok (set draft value) := by
    rw [Slot.fill_ofMember_eq_ok_iff]
    exact ⟨value, hread, rfl⟩
  have hfresh : (Slot.ofMember key required read get set).isFilled draft = false := by
    unfold Slot.ofMember
    dsimp only
    rw [hget]
    rfl
  rw [fillMembers, hslot]
  dsimp only
  rw [hfresh, hfill]
  rfl

theorem fillMembers_member? {α β : Type} {key : String} {required : Bool}
    {read : Nat → Document → Except Fault α} {get : δ → Option α} {set : δ → α → δ}
    (hslot : form.slot? key = some (.ofMember key required read get set))
    {draft : δ} (hget : get draft = none) {write : β → Document} {value : Option β} {result : β → α}
    (hread : ∀ v ∈ value, read room (write v) = .ok (result v))
    : form.fillMembers room (Document.member? key write value) draft
        =
      .ok (value.elim draft fun v => set draft (result v)) := by
  cases value with
  | none => rfl
  | some v =>
    rw [Document.member?, fillMembers_cons hslot hget (hread v rfl)]
    rfl

theorem read_object {members : List (Option String × Document)} {draft : δ}
    (h : form.fillMembers room members form.blank = .ok draft)
    : form.read (room + 1) (.object members true) = (form.finish draft).mapError .mismatch := by
  unfold read RecordForm.draft
  dsimp only
  rw [h]
  rfl

theorem read_object_eq_ok_iff {members : List (Option String × Document)} {closed : Bool}
    {record : ρ}
    : form.read (room + 1) (.object members closed) = .ok record
        ↔
      closed = true ∧ ∃ draft, form.fillMembers room members form.blank = .ok draft
        ∧ form.finish draft = .ok record := by
  rw [read, Document.bind_eq_ok_iff]
  simp only [RecordForm.draft, Document.bind_eq_ok_iff, Document.mapError_eq_ok_iff]
  cases closed <;> simp

theorem read_array_eq_ok_iff {items : List Document} {closed : Bool} {record : ρ}
    : form.read (room + 1) (.array items closed) = .ok record
        ↔
      ∃ draft, form.fillItems room closed 0 form.slots items form.blank = .ok draft
        ∧ form.finish draft = .ok record := by
  rw [read, Document.bind_eq_ok_iff]
  simp only [RecordForm.draft, Document.mapError_eq_ok_iff]

structure IsKept (form : RecordForm δ ρ) (room : Nat) (P : δ → Prop) : Prop where
  blank : P form.blank
  slots : ∀ slot ∈ form.slots, slot.Keeps room P

variable {P : δ → Prop}

theorem IsKept.fillItems (h : form.IsKept room P) {closed : Bool} {index : Nat}
    {slots : List (Slot δ)} (hslots : slots ⊆ form.slots) {items : List Document} {draft next : δ}
    (hdraft : P draft) (hitems : form.fillItems room closed index slots items draft = .ok next)
    : P next := by
  induction slots generalizing index items draft with
  | nil =>
    rw [RecordForm.fillItems] at hitems
    split at hitems
    . cases hitems
      exact hdraft
    . cases hitems
  | cons slot slots ih =>
    have ⟨hslot, hrest⟩ := List.cons_subset.mp hslots
    cases items with
    | nil =>
      rw [RecordForm.fillItems] at hitems
      split at hitems
      . cases hitems
      . split at hitems
        . cases hitems
        . exact ih hrest hdraft hitems
    | cons item items =>
      rw [RecordForm.fillItems, Document.bind_eq_ok_iff] at hitems
      rcases hitems with ⟨filled, hfilled, hitems⟩
      exact ih hrest (h.slots slot hslot item draft filled hdraft hfilled) hitems

theorem IsKept.fillMembers (h : form.IsKept room P) {members : List (Option String × Document)}
    {draft next : δ} (hdraft : P draft)
    (hmembers : form.fillMembers room members draft = .ok next) : P next := by
  induction members generalizing draft with
  | nil =>
    cases hmembers
    exact hdraft
  | cons m members ih =>
    rcases m with ⟨_ | key, d⟩
    . cases hmembers
    . rw [RecordForm.fillMembers] at hmembers
      split at hmembers
      . next slot hslot =>
        split at hmembers
        . cases hmembers
        . rw [Document.bind_eq_ok_iff] at hmembers
          rcases hmembers with ⟨filled, hfilled, hmembers⟩
          have hmem := List.mem_of_find?_eq_some hslot
          exact ih (h.slots slot hmem d draft filled hdraft hfilled) hmembers
      . split at hmembers
        . exact ih hdraft hmembers
        . cases hmembers

theorem IsKept.of_read (h : form.IsKept room P) {d : Document} {record : ρ}
    (hread : form.read (room + 1) d = .ok record)
    : ∃ draft, P draft ∧ form.finish draft = .ok record := by
  cases d with
  | array items closed =>
    rw [read_array_eq_ok_iff] at hread
    rcases hread with ⟨draft, hitems, hfinish⟩
    exact ⟨draft, h.fillItems (List.Subset.refl _) h.blank hitems, hfinish⟩
  | object members closed =>
    rw [read_object_eq_ok_iff] at hread
    rcases hread with ⟨_, draft, hmembers, hfinish⟩
    exact ⟨draft, h.fillMembers h.blank hmembers, hfinish⟩
  | _ => cases hread

end RecordForm

end FormLogic
