import FormLogic.Catalogue.Request

/-!
This module contains catalogues as plain lists. All that a request can do to a catalogue is an edit,
and what an edit does to a list says what it should do to a catalogue.
-/

namespace FormLogic.Catalogue

inductive Edit where
  | load (fields : List Field)
  | delete (name : String)
  | clear

def Request.edit? (contains : String → Bool) : Request → Option Edit
  | .load f => some (.load [f])
  | .loadAll fields => some (.load fields)
  | .loadText text =>
    match Field.ofText text with
    | .ok f => some (.load [f])
    | .error _ => none
  | .loadListText text =>
    match Field.listOfText text with
    | .ok fields => some (.load fields)
    | .error _ => none
  | .update f => if contains f.name then some (.load [f]) else none
  | .delete name => if contains name then some (.delete name) else none
  | .clear => some .clear
  -- Requests that only read load nothing.
  | .evaluate name _ => if contains name then some (.load []) else none
  | .get _ | .contains _ | .names | .revisions | .evaluateAll _ | .stats | .size => some (.load [])

def apply (c : Catalogue) : Edit → Catalogue
  | .load fields => c.loadAll fields
  | .delete name => c.delete name
  | .clear => c.clear

theorem contains_eq_isSome_get? (c : Catalogue) (name : String)
    : c.contains name = (c.get? name).isSome := by
  simp [contains, get?]

theorem perform_eq_apply (c : Catalogue) (request : Request)
    : (c.perform request).1 = ((request.edit? c.contains).map c.apply).getD c
        ∧
      (c.perform request).2.isOk = (request.edit? c.contains).isSome := by
  cases request with
  | loadText text =>
    simp only [perform, Request.edit?]
    cases Field.ofText text <;> exact ⟨rfl, rfl⟩
  | loadListText text =>
    simp only [perform, Request.edit?]
    cases Field.listOfText text <;> exact ⟨rfl, rfl⟩
  | update f =>
    simp only [perform, Request.edit?]
    cases c.contains f.name <;> exact ⟨rfl, rfl⟩
  | delete name =>
    simp only [perform, Request.edit?]
    cases c.contains name <;> exact ⟨rfl, rfl⟩
  | evaluate name ctx =>
    simp only [perform, Request.edit?, contains_eq_isSome_get?]
    cases c.get? name <;> exact ⟨rfl, rfl⟩
  | _ => exact ⟨rfl, rfl⟩

/--
The entries in the order in which their names came in, and all fields that were ever loaded.
-/
structure Listing where
  entries : List (String × Revision)
  history : List Field

namespace Listing

def put {α : Type} (entries : List (String × α)) (name : String) (value : α)
    : List (String × α) :=
  if name ∈ entries.map (·.1) then
    entries.map fun entry => if entry.1 = name then (name, value) else entry
  else
    entries ++ [(name, value)]

def empty : Listing := ⟨[], []⟩

def names (l : Listing) : List String := l.entries.map (·.1)

def load (l : Listing) (f : Field) : Listing :=
  ⟨put l.entries f.name (.next l.history.length f), l.history ++ [f]⟩

def apply (l : Listing) : Edit → Listing
  | .load fields => fields.foldl load l
  | .delete name => { l with entries := l.entries.filter (·.1 ≠ name) }
  | .clear => { l with entries := [] }

def perform? (l : Listing) (request : Request) : Option Listing :=
  (request.edit? (· ∈ l.names)).map l.apply

def performAll (l : Listing) (requests : List Request) : Listing :=
  -- A request that fails changes nothing.
  requests.foldl (fun l request => (l.perform? request).getD l) l

def latest? (history : List Field) (name : String) : Option Revision :=
  (history.mapIdx Revision.next).reverse.find? (·.name = name)

theorem mem_put {α : Type} (entries : List (String × α)) (name : String) (value : α)
    (entry : String × α)
    : entry ∈ put entries name value
        ↔
      entry = (name, value) ∨ (entry ∈ entries ∧ entry.1 ≠ name) := by
  unfold put
  split
  . next hmem =>
    rw [List.mem_map] at hmem
    rcases hmem with ⟨old, hold, hname⟩
    rw [List.mem_map]
    constructor
    . intro h
      rcases h with ⟨other, hother, h⟩
      split at h
      . exact .inl h.symm
      . next hne =>
        subst h
        exact .inr ⟨hother, hne⟩
    . intro h
      cases h with
      | inl h => exact ⟨old, hold, by simp [hname, h]⟩
      | inr h => exact ⟨entry, h.1, by simp [h.2]⟩
  . next hmem =>
    rw [List.mem_append, List.mem_singleton]
    constructor
    . intro h
      cases h with
      | inl h =>
        refine .inr ⟨h, ?_⟩
        intro hname
        apply hmem
        rw [← hname]
        exact List.mem_map_of_mem h
      | inr h => exact .inl h
    . intro h
      cases h with
      | inl h => exact .inr h
      | inr h => exact .inl h.1

theorem put_map {α β : Type} (g : α → β) (entries : List (String × α)) (name : String) (value : α)
    : put (entries.map fun entry => (entry.1, g entry.2)) name (g value)
        =
      (put entries name value).map fun entry => (entry.1, g entry.2) := by
  unfold put
  rw [List.map_map]
  dsimp [Function.comp_def]
  split
  . rw [List.map_map, List.map_map]
    apply List.map_congr_left
    intro entry _
    dsimp
    split <;> rfl
  . simp

theorem latest?_append (history : List Field) (f : Field) (name : String)
    : latest? (history ++ [f]) name
        =
      if f.name = name then some (.next history.length f) else latest? history name := by
  unfold latest?
  rw [List.mapIdx_append, List.reverse_append, List.find?_append]
  simp only [List.mapIdx_cons, List.mapIdx_nil, Nat.zero_add, List.reverse_singleton]
  split
  . next h => simp [Revision.name, Revision.next, h]
  . next h => simp [Revision.name, Revision.next, h]

def IsLatest (l : Listing) : Prop :=
  ∀ name r, (name, r) ∈ l.entries → latest? l.history name = some r

namespace IsLatest

theorem empty : IsLatest empty := by
  intro name r h
  simp [Listing.empty] at h

variable {l : Listing}

theorem load (h : IsLatest l) (f : Field) : IsLatest (l.load f) := by
  intro name r hmem
  unfold Listing.load at hmem ⊢
  rw [mem_put] at hmem
  rw [latest?_append]
  cases hmem with
  | inl heq => simp_all
  | inr hold =>
    rw [if_neg (Ne.symm hold.2)]
    exact h name r hold.1

theorem loadAll (h : IsLatest l) (fields : List Field)
    : IsLatest (fields.foldl Listing.load l) := by
  induction fields generalizing l with
  | nil => exact h
  | cons f fields ih => exact ih (h.load f)

theorem apply (h : IsLatest l) (edit : Edit) : IsLatest (l.apply edit) := by
  cases edit with
  | load fields => exact h.loadAll fields
  | delete name =>
    intro other r hmem
    simp only [Listing.apply, List.mem_filter] at hmem
    exact h other r hmem.1
  | clear =>
    intro name r hmem
    simp [Listing.apply] at hmem

theorem perform (h : IsLatest l) (request : Request)
    : IsLatest ((l.perform? request).getD l) := by
  unfold perform?
  cases request.edit? (· ∈ l.names) with
  | none => exact h
  | some edit => exact h.apply edit

theorem performAll (h : IsLatest l) (requests : List Request)
    : IsLatest (l.performAll requests) := by
  induction requests generalizing l with
  | nil => exact h
  | cons request requests ih => exact ih (h.perform request)

end IsLatest

end Listing

end FormLogic.Catalogue
