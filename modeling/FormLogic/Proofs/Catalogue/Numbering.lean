import FormLogic.Proofs.Catalogue.Refinement
import Mathlib.Data.List.Induction

/-!
This module contains the proof that numbers tell revisions apart. Every field that comes in takes
the next number, and no request gives a number back. Revisions are replaced, deleted and cleared
without regard to the counter, so what is known of the numbers is kept as the history of all fields
that came in: a revision that is stored is the last one of its name in that history.
-/

namespace FormLogic

namespace Revision

def numbered (history : List Field) : List Revision := history.mapIdx next

theorem numbered_append (history : List Field) (f : Field)
    : numbered (history ++ [f]) = numbered history ++ [next history.length f] := by
  unfold numbered
  simp

theorem number_le_of_mem_numbered {history : List Field} {r : Revision} (h : r ∈ numbered history)
    : r.number ≤ history.length := by
  unfold numbered at h
  rw [List.mem_mapIdx] at h
  rcases h with ⟨index, hindex, rfl⟩
  exact hindex

theorem number_injective {history : List Field} {r other : Revision} (h : r ∈ numbered history)
    (hother : other ∈ numbered history) (heq : r.number = other.number) : r = other := by
  unfold numbered at h hother
  rw [List.mem_mapIdx] at h hother
  rcases h with ⟨index, hindex, rfl⟩
  rcases hother with ⟨index', hindex', rfl⟩
  have : index = index' := Nat.succ.inj heq
  subst this
  rfl

end Revision

namespace Catalogue

open Revision

/--
The fields that a request brings in. Of a list all come in, and of a request that fails none.
-/
def Request.loaded (c : Catalogue) : Request → List Field
  | .load f => [f]
  | .loadAll fields => fields
  | .loadText text => (Field.ofText text).toOption.toList
  | .loadListText text => (Field.listOfText text).toOption.getD []
  | .update f => if c.contains f.name then [f] else []
  | _ => []

def loaded (c : Catalogue) : List Request → List Field
  | [] => []
  | request :: requests => request.loaded c ++ (c.perform request).1.loaded requests

def numbers (c : Catalogue) : List Nat := c.revisions.map (·.number)

def Edit.fields : Edit → List Field
  | .load fields => fields
  | .delete _ | .clear => []

theorem Request.loaded_eq (c : Catalogue) (request : Request)
    : request.loaded c = ((request.edit? c.contains).map Edit.fields).getD [] := by
  cases request with
  | loadText text =>
    simp only [loaded, edit?]
    cases Field.ofText text <;> rfl
  | loadListText text =>
    simp only [loaded, edit?]
    cases Field.listOfText text <;> rfl
  | update f =>
    simp only [loaded, edit?]
    cases c.contains f.name <;> rfl
  | delete name =>
    simp only [loaded, edit?]
    cases c.contains name <;> rfl
  | evaluate name ctx =>
    simp only [loaded, edit?]
    cases c.contains name <;> rfl
  | _ => rfl

namespace Listing

theorem history_loadAll (l : Listing) (fields : List Field)
    : (fields.foldl load l).history = l.history ++ fields := by
  induction fields generalizing l with
  | nil => simp
  | cons f fields ih =>
    rw [List.foldl_cons, ih, load]
    simp

theorem history_apply (l : Listing) (edit : Edit)
    : (l.apply edit).history = l.history ++ edit.fields := by
  cases edit with
  | load fields => exact l.history_loadAll fields
  | delete name => exact (List.append_nil _).symm
  | clear => exact (List.append_nil _).symm

theorem latest?_eq_some {history : List Field} {name : String} {r : Revision}
    (h : latest? history name = some r)
    : r.name = name ∧ r ∈ numbered history
        ∧ ∀ other ∈ numbered history, other.name = name → other.number ≤ r.number := by
  induction history using List.reverseRecOn with
  | nil => simp [latest?] at h
  | append_singleton history f ih =>
    rw [latest?_append] at h
    rw [numbered_append]
    split at h
    . next hname =>
      -- The last field of all has the name, and its number is above all others.
      cases h
      refine ⟨hname, by simp, ?_⟩
      intro other hother _
      rw [List.mem_append, List.mem_singleton] at hother
      cases hother with
      | inl hold => exact Nat.le_succ_of_le (number_le_of_mem_numbered hold)
      | inr hnew => exact Nat.le_of_eq (by rw [hnew])
    . next hname =>
      have ⟨hr, hmem, hlast⟩ := ih h
      refine ⟨hr, List.mem_append_left _ hmem, ?_⟩
      intro other hother hother_name
      rw [List.mem_append, List.mem_singleton] at hother
      cases hother with
      | inl hold => exact hlast other hold hother_name
      | inr hnew =>
        rw [hnew] at hother_name
        exact absurd hother_name hname

end Listing

namespace Refines

variable {c : Catalogue} {l : Listing}

theorem history_perform (h : Refines c l) (request : Request)
    : ((l.perform? request).getD l).history = l.history ++ request.loaded c := by
  rw [Request.loaded_eq, h.edit?_eq]
  unfold Listing.perform?
  cases request.edit? (· ∈ l.names) with
  | none => exact (List.append_nil _).symm
  | some edit => exact l.history_apply edit

theorem history_performAll (h : Refines c l) (requests : List Request)
    : (l.performAll requests).history = l.history ++ c.loaded requests := by
  induction requests generalizing c l with
  | nil => exact (List.append_nil _).symm
  | cons request requests ih =>
    have hnext := ih (h.perform request)
    rw [h.history_perform, List.append_assoc] at hnext
    exact hnext

theorem lastRevision_eq (h : Refines c l) : c.lastRevision = l.history.length := by
  rcases h with ⟨_, _, _, hlast⟩
  exact hlast

theorem mem_revisions_iff (h : Refines c l) (r : Revision)
    : r ∈ c.revisions ↔ ∃ name, c.get? name = some r := by
  rw [h.revisions_eq, List.mem_map]
  constructor
  . intro hr
    rcases hr with ⟨⟨name, r⟩, hmem, rfl⟩
    refine ⟨name, ?_⟩
    rw [h.get?_eq, lookup_eq_some_iff_mem h.nodup_names]
    exact hmem
  . intro hr
    rcases hr with ⟨name, hget⟩
    rw [h.get?_eq, lookup_eq_some_iff_mem h.nodup_names] at hget
    exact ⟨(name, r), hget, rfl⟩

theorem mem_numbers_iff (h : Refines c l) (number : Nat)
    : number ∈ c.numbers ↔ ∃ name r, c.get? name = some r ∧ r.number = number := by
  unfold numbers
  rw [List.mem_map]
  constructor
  . intro hnumber
    rcases hnumber with ⟨r, hr, rfl⟩
    rw [h.mem_revisions_iff] at hr
    rcases hr with ⟨name, hget⟩
    exact ⟨name, r, hget, rfl⟩
  . intro hnumber
    rcases hnumber with ⟨name, r, hget, rfl⟩
    refine ⟨r, ?_, rfl⟩
    rw [h.mem_revisions_iff]
    exact ⟨name, hget⟩

theorem last_of_get? (h : Refines c l) (hlatest : l.IsLatest) {name : String} {r : Revision}
    (hr : c.get? name = some r)
    : r.name = name ∧ r ∈ numbered l.history
        ∧ ∀ other ∈ numbered l.history, other.name = name → other.number ≤ r.number := by
  rw [h.get?_eq_latest? hlatest] at hr
  split at hr
  . exact Listing.latest?_eq_some hr
  . cases hr

theorem nodup_numbers (h : Refines c l) (hlatest : l.IsLatest) : c.numbers.Nodup := by
  have hrevisions : c.revisions.Nodup := by
    have hnames := h.nodup_names
    rw [← h.names_eq] at hnames
    exact hnames.of_map
  unfold numbers
  apply hrevisions.map_on
  intro r hr other hother heq
  rw [h.mem_revisions_iff] at hr hother
  rcases hr with ⟨_, hget⟩
  rcases hother with ⟨_, hget'⟩
  exact number_injective (h.last_of_get? hlatest hget).2.1 (h.last_of_get? hlatest hget').2.1 heq

end Refines

theorem get?_load (c : Catalogue) (f : Field) (name : String)
    : (c.load f).get? name
        =
      if f.name = name then some (.next c.lastRevision f) else c.get? name := by
  have ⟨hentries, _, _⟩ := c.load_eq f
  unfold get?
  rw [hentries, Std.TreeMap.getElem?_insert]
  by_cases h : f.name = name
  . simp [h]
  . simp [h]

theorem get?_delete (c : Catalogue) (name other : String)
    : (c.delete name).get? other = if name = other then none else c.get? other := by
  unfold get? delete
  rw [Std.TreeMap.getElem?_erase]
  by_cases h : name = other
  . simp [h]
  . simp [h]

structure LeadsTo (c next : Catalogue) : Prop where
  lastRevision_le : c.lastRevision ≤ next.lastRevision
  old_or_new : ∀ name r, next.get? name = some r → c.get? name = some r ∨ c.lastRevision < r.number

namespace LeadsTo

theorem refl (c : Catalogue) : LeadsTo c c where
  lastRevision_le := Nat.le_refl _
  old_or_new := by
    intro name r h
    exact .inl h

variable {c next last : Catalogue}

theorem trans (h : LeadsTo c next) (h' : LeadsTo next last) : LeadsTo c last where
  lastRevision_le := Nat.le_trans h.lastRevision_le h'.lastRevision_le
  old_or_new := by
    intro name r hr
    cases h'.old_or_new name r hr with
    | inl hold => exact h.old_or_new name r hold
    | inr hnew => exact .inr (Nat.lt_of_le_of_lt h.lastRevision_le hnew)

theorem load (c : Catalogue) (f : Field) : LeadsTo c (c.load f) := by
  have ⟨_, hnumber, _⟩ := c.load_eq f
  constructor
  . omega
  . intro name r hr
    rw [get?_load] at hr
    split at hr
    . cases hr
      exact .inr (Nat.lt_succ_self _)
    . exact .inl hr

theorem loadAll (c : Catalogue) (fields : List Field) : LeadsTo c (c.loadAll fields) := by
  unfold Catalogue.loadAll
  induction fields generalizing c with
  | nil => exact .refl c
  | cons f fields ih => exact (load c f).trans (ih (c.load f))

theorem apply (c : Catalogue) (edit : Edit) : LeadsTo c (c.apply edit) := by
  cases edit with
  | load fields => exact loadAll c fields
  | delete name =>
    refine ⟨Nat.le_refl _, ?_⟩
    intro other r hr
    unfold Catalogue.apply at hr
    rw [get?_delete] at hr
    split at hr
    . cases hr
    . exact .inl hr
  | clear =>
    refine ⟨Nat.le_refl _, ?_⟩
    intro name r hr
    simp [Catalogue.apply, clear, get?] at hr

theorem perform (c : Catalogue) (request : Request) : LeadsTo c (c.perform request).1 := by
  have ⟨hperform, _⟩ := c.perform_eq_apply request
  rw [hperform]
  cases request.edit? c.contains with
  | none => exact .refl c
  | some edit => exact apply c edit

theorem performAll (c : Catalogue) (requests : List Request)
    : LeadsTo c (c.performAll requests).1 := by
  induction requests generalizing c with
  | nil => exact .refl c
  | cons request requests ih => exact (perform c request).trans (ih _)

end LeadsTo

theorem exists_get?_loadAll (c : Catalogue) {fields : List Field} {f : Field} (h : f ∈ fields)
    : ∃ r, (c.loadAll fields).get? f.name = some r ∧ c.lastRevision < r.number := by
  induction fields using List.reverseRecOn with
  | nil => simp at h
  | append_singleton fields last ih =>
    have hload : c.loadAll (fields ++ [last]) = (c.loadAll fields).load last := by
      unfold loadAll
      rw [List.foldl_append]
      rfl
    rw [hload, get?_load]
    split
    . refine ⟨_, rfl, ?_⟩
      exact Nat.lt_succ_of_le (LeadsTo.loadAll c fields).lastRevision_le
    . next hname =>
      rw [List.mem_append, List.mem_singleton] at h
      cases h with
      | inl h => exact ih h
      | inr h => exact absurd (by rw [h]) hname

theorem exists_get?_perform (c : Catalogue) {request : Request} {f : Field}
    (h : f ∈ request.loaded c)
    : ∃ r, (c.perform request).1.get? f.name = some r ∧ c.lastRevision < r.number := by
  have ⟨hperform, _⟩ := c.perform_eq_apply request
  rw [Request.loaded_eq] at h
  rw [hperform]
  cases hedit : request.edit? c.contains with
  | none => simp [hedit] at h
  | some edit =>
    rw [hedit] at h
    cases edit with
    | load fields => exact c.exists_get?_loadAll h
    | delete name => simp [Edit.fields] at h
    | clear => simp [Edit.fields] at h

theorem numbers_of_performAll (evaluator : Evaluator) (requests : List Request)
    : let start := Catalogue.empty evaluator
      let c := (start.performAll requests).1
      let history := start.loaded requests
      c.lastRevision = history.length
        ∧ (∀ name r, c.get? name = some r
            → r.name = name ∧ r ∈ numbered history
              ∧ ∀ other ∈ numbered history, other.name = name → other.number ≤ r.number)
        ∧ c.numbers.Nodup
        ∧ (∀ number ∈ c.numbers, number ≤ c.lastRevision)
        ∧ (∀ request, ∀ f ∈ request.loaded c,
            ∃ r, (c.perform request).1.get? f.name = some r
              ∧ ∀ old ∈ numbered history, old.number < r.number)
        ∧ ∀ later, ∀ number ∈ (c.performAll later).1.numbers,
            number ∈ c.numbers ∨ c.lastRevision < number := by
  intro start c history
  have h : Refines c (Listing.empty.performAll requests) :=
    (Refines.empty evaluator).performAll requests
  have hlatest := Listing.IsLatest.empty.performAll requests
  have hhistory : (Listing.empty.performAll requests).history = history :=
    (Refines.empty evaluator).history_performAll requests
  have hlast : c.lastRevision = history.length := by rw [h.lastRevision_eq, hhistory]
  have hstored : ∀ name r, c.get? name = some r
      → r.name = name ∧ r ∈ numbered history
        ∧ ∀ other ∈ numbered history, other.name = name → other.number ≤ r.number := by
    intro name r hr
    rw [← hhistory]
    exact h.last_of_get? hlatest hr
  refine ⟨hlast, hstored, h.nodup_numbers hlatest, ?_, ?_, ?_⟩
  . intro number hnumber
    rw [h.mem_numbers_iff] at hnumber
    rcases hnumber with ⟨name, r, hget, rfl⟩
    rw [hlast]
    exact number_le_of_mem_numbered (hstored name r hget).2.1
  . intro request f hf
    have ⟨r, hget, hlt⟩ := c.exists_get?_perform hf
    refine ⟨r, hget, ?_⟩
    intro old hold
    have hle := number_le_of_mem_numbered hold
    omega
  . intro later number hnumber
    rw [(h.performAll later).mem_numbers_iff] at hnumber
    rw [h.mem_numbers_iff]
    rcases hnumber with ⟨name, r, hget, rfl⟩
    cases (LeadsTo.performAll c later).old_or_new name r hget with
    | inl hold => exact .inl ⟨name, r, hold, rfl⟩
    | inr hnew => exact .inr hnew

theorem numbers_of_performAll_twice_in_list
    : let a := Field.plain "a" "" ""
      let b := Field.plain "b" "" ""
      let start := Catalogue.empty (.ofTracing false)
      let before := [Request.loadAll [a, b, a], .load b, .delete "b"]
      let c := (start.performAll before).1
      let history := start.loaded before
      let request := Request.loadAll [b, a, b]
      history = [a, b, a, b]
        ∧ (∃ r, c.get? "a" = some r ∧ r.number = 3
            ∧ ∀ other ∈ numbered history, other.name = "a" → other.number ≤ r.number)
        ∧ b ∈ request.loaded c
        ∧ (∃ r, (c.perform request).1.get? b.name = some r
            ∧ ∀ old ∈ numbered history, old.number < r.number)
        ∧ (c.performAll [request]).1.numbers = [6, 7]
        ∧ ∀ number ∈ [6, 7], number ∈ c.numbers ∨ c.lastRevision < number := by
  intro a b start before c history request
  have ⟨_, hstored, _, _, hloaded, hlater⟩ := numbers_of_performAll (.ofTracing false) before
  have hget : (c.get? "a").map (·.number) = some 3 := by decide +kernel
  have hb : b ∈ request.loaded c := List.mem_cons_self
  have hnumbers : (c.performAll [request]).1.numbers = [6, 7] := by
    have h := ((Refines.empty (.ofTracing false)).performAll before).performAll [request]
    unfold numbers
    rw [h.revisions_eq]
    decide +kernel
  rw [Option.map_eq_some_iff] at hget
  rcases hget with ⟨r, hr, hnumber⟩
  have hnext := hlater [request]
  rw [hnumbers] at hnext
  refine ⟨rfl, ⟨r, hr, hnumber, (hstored "a" r hr).2.2⟩, hb, hloaded request b hb, hnumbers, ?_⟩
  dsimp only [c, start]
  exact hnext

end Catalogue

end FormLogic
