import FormLogic.Proofs.Json.Record

/-!
This module contains the proof that what is read in some room is read alike where there is more,
that is inside of fewer containers.
-/

namespace FormLogic

namespace Document

def Widens {α : Type} (read : Nat → Document → Except Fault α) : Prop :=
  ∀ room d value, read room d = .ok value → read (room + 1) d = .ok value

theorem widens_const {α : Type} (read : Document → Except Fault α) : Widens fun _ d => read d :=
  fun _ _ _ h => h

theorem widens_asList {α : Type} {item : Nat → Document → Except Fault α} (h : Widens item)
    : Widens (asList item) := by
  intro room d values hlist
  have ⟨room', hroom⟩ := exists_room_of_asList_eq_ok hlist
  subst hroom
  rw [asList_eq_ok_iff] at hlist ⊢
  rcases hlist with ⟨items, hd, hitems⟩
  rw [mapM_eq_ok_iff] at hitems
  refine ⟨items, hd, ?_⟩
  rw [mapM_eq_ok_iff]
  exact hitems.imp fun item value hitem => h room' item value hitem

theorem widens_asOption {α : Type} {read : Nat → Document → Except Fault α} (h : Widens read)
    : Widens fun room d => d.asOption (read room) := by
  intro room d result hoption
  rw [asOption_eq_ok_iff] at hoption ⊢
  rcases hoption with hnull | ⟨hd, value, hvalue, hresult⟩
  . exact .inl hnull
  . exact .inr ⟨hd, value, h room d value hvalue, hresult⟩

mutual

theorem value?_succ {room : Nat} {d : Document} {v : Json} (h : d.value? room = some v)
    : d.value? (room + 1) = some v := by
  cases d with
  | array items closed =>
    cases room with
    | zero => cases h
    | succ room =>
      rw [value?] at h ⊢
      cases closed with
      | false => cases h
      | true =>
        rw [if_pos rfl, Option.map_eq_some_iff] at h
        rcases h with ⟨vs, hvs, rfl⟩
        rw [if_pos rfl, values?_succ hvs]
        rfl
  | object members closed =>
    cases room with
    | zero => cases h
    | succ room =>
      rw [value?] at h ⊢
      cases closed with
      | false => cases h
      | true =>
        rw [if_pos rfl, Option.map_eq_some_iff] at h
        rcases h with ⟨ms, hms, rfl⟩
        rw [if_pos rfl, memberValues?_succ hms]
        rfl
  | _ => exact h

theorem values?_succ {room : Nat} {ds : List Document} {vs : List Json}
    (h : values? room ds = some vs) : values? (room + 1) ds = some vs := by
  match ds with
  | [] => exact h
  | d :: ds =>
    rw [values?, Option.bind_eq_bind, Option.bind_eq_some_iff] at h
    rcases h with ⟨v, hv, h⟩
    rw [Option.bind_eq_bind, Option.bind_eq_some_iff] at h
    rcases h with ⟨rest, hrest, heq⟩
    rw [values?, value?_succ hv, Option.bind_eq_bind, Option.bind_some, values?_succ hrest]
    exact heq

theorem memberValues?_succ {room : Nat} {ms : List (Option String × Document)}
    {vs : List (String × Json)} (h : memberValues? room ms = some vs)
    : memberValues? (room + 1) ms = some vs := by
  match ms with
  | [] => exact h
  | (none, _) :: _ => cases h
  | (some k, d) :: ms =>
    rw [memberValues?, Option.bind_eq_bind, Option.bind_eq_some_iff] at h
    rcases h with ⟨v, hv, h⟩
    rw [Option.bind_eq_bind, Option.bind_eq_some_iff] at h
    rcases h with ⟨rest, hrest, heq⟩
    rw [memberValues?, value?_succ hv, Option.bind_eq_bind, Option.bind_some,
      memberValues?_succ hrest]
    exact heq

end

theorem widens_asValue : Widens asValue := by
  intro room d v h
  unfold asValue at h ⊢
  split at h
  . next hv =>
    rw [value?_succ hv]
    exact h
  . cases h

end Document

def Slot.Widens {δ : Type} (slot : Slot δ) : Prop :=
  ∀ room d draft next, slot.fill room d draft = .ok next → slot.fill (room + 1) d draft = .ok next

theorem Slot.widens_ofMember {α δ : Type} {read : Nat → Document → Except Fault α}
    (h : Document.Widens read) (key : String) (required : Bool) (get : δ → Option α)
    (set : δ → α → δ) : (ofMember key required read get set).Widens := by
  intro room d draft next hfill
  rw [fill_ofMember_eq_ok_iff] at hfill ⊢
  rcases hfill with ⟨value, hvalue, hset⟩
  exact ⟨value, h room d value hvalue, hset⟩

namespace RecordForm

variable {δ ρ : Type} {form : RecordForm δ ρ} {room : Nat}

theorem fillItems_succ {slots : List (Slot δ)} (hslots : ∀ slot ∈ slots, slot.Widens)
    {closed : Bool} {index : Nat} {items : List Document} {draft next : δ}
    (h : form.fillItems room closed index slots items draft = .ok next)
    : form.fillItems (room + 1) closed index slots items draft = .ok next := by
  induction slots generalizing index items draft with
  | nil => exact h
  | cons slot slots ih =>
    rw [List.forall_mem_cons] at hslots
    cases items with
    | nil =>
      rw [fillItems] at h ⊢
      split at h
      . cases h
      . next hclosed =>
        rw [if_neg hclosed]
        split at h
        . cases h
        . next hrequired =>
          rw [if_neg hrequired]
          exact ih hslots.2 h
    | cons item items =>
      rw [fillItems, Document.bind_eq_ok_iff] at h ⊢
      rcases h with ⟨filled, hfilled, hrest⟩
      exact ⟨filled, hslots.1 room item draft filled hfilled, ih hslots.2 hrest⟩

theorem fillMembers_succ (hslots : ∀ slot ∈ form.slots, slot.Widens)
    {members : List (Option String × Document)} {draft next : δ}
    (h : form.fillMembers room members draft = .ok next)
    : form.fillMembers (room + 1) members draft = .ok next := by
  induction members generalizing draft with
  | nil => exact h
  | cons m members ih =>
    rcases m with ⟨_ | key, d⟩
    . cases h
    . rw [fillMembers] at h ⊢
      split at h
      . next slot hslot =>
        have hwidens := hslots slot (List.mem_of_find?_eq_some hslot)
        split at h
        . cases h
        . next hfilled =>
          rw [Document.bind_eq_ok_iff] at h
          rcases h with ⟨filled, hfill, hrest⟩
          rw [if_neg hfilled, hwidens room d draft filled hfill]
          exact ih hrest
      . next hslot =>
        split at h
        . next hintact =>
          rw [if_pos hintact]
          exact ih h
        . cases h

theorem widens_read (hslots : ∀ slot ∈ form.slots, slot.Widens) : Document.Widens form.read := by
  intro room d record h
  rw [read, Document.bind_eq_ok_iff] at h ⊢
  rcases h with ⟨draft, hdraft, hrecord⟩
  refine ⟨draft, ?_, hrecord⟩
  unfold RecordForm.draft at hdraft ⊢
  split at hdraft
  . cases hdraft
  . cases hdraft
  . exact fillItems_succ hslots hdraft
  . rw [Document.bind_eq_ok_iff] at hdraft
    rcases hdraft with ⟨filled, hfilled, hclosed⟩
    rw [fillMembers_succ hslots hfilled]
    exact hclosed
  . cases hdraft

end RecordForm

end FormLogic
