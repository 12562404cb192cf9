import FormLogic.Proofs.Catalogue.Listing
import Mathlib.Data.List.Nodup

/-!
This module contains the proof that catalogues behave like listings. A catalogue knows the order of
its names only through places, which a replaced entry hands on and a deleted one takes with it. They
are never given twice, so sorting by them finds the order again.
-/

namespace FormLogic.Catalogue

structure IsOrdered (c : Catalogue) (entries : List (String × Entry)) : Prop where
  mem_iff : ∀ name entry, (name, entry) ∈ entries ↔ c.entries[name]? = some entry
  places : (entries.map (·.2.place)).Pairwise (· < ·)
  place_lt : ∀ entry ∈ entries, entry.2.place < c.nextPlace
  name_eq : ∀ entry ∈ entries, entry.2.revision.name = entry.1

def placeOf (c : Catalogue) (name : String) : Nat :=
  match c.entries[name]? with
  | some entry => entry.place
  | none => c.nextPlace

theorem load_eq (c : Catalogue) (f : Field)
    : (c.load f).entries = c.entries.insert f.name ⟨.next c.lastRevision f, c.placeOf f.name⟩
        ∧
      (c.load f).lastRevision = c.lastRevision + 1
        ∧
      (c.load f).nextPlace
          =
        if c.entries[f.name]?.isSome then c.nextPlace else c.nextPlace + 1 := by
  unfold load placeOf
  cases c.entries[f.name]? <;> exact ⟨rfl, rfl, rfl⟩

theorem values_eq_map_toList (entries : Std.TreeMap String Entry)
    : entries.values = entries.toList.map (·.2) := by
  have hvalues : entries.values = entries.foldr (fun _ entry values => entry :: values) [] := by rfl
  rw [hvalues, Std.TreeMap.foldr_eq_foldr_toList]
  induction entries.toList with
  | nil => rfl
  | cons entry rest ih => rw [List.foldr_cons, ih, List.map_cons]

theorem lookup_eq_some_iff_mem {α : Type} {entries : List (String × α)}
    (hnodup : (entries.map (·.1)).Nodup) (name : String) (value : α)
    : entries.lookup name = some value ↔ (name, value) ∈ entries := by
  rw [List.lookup_eq_some_iff]
  constructor
  . intro h
    rcases h with ⟨before, after, h, _⟩
    simp [h]
  . intro h
    rcases List.append_of_mem h with ⟨before, after, h⟩
    refine ⟨before, after, h, ?_⟩
    intro entry hentry
    rw [h, List.map_append, List.nodup_append] at hnodup
    have := hnodup.2.2 entry.1 (List.mem_map_of_mem hentry) name (by simp)
    simp [Ne.symm this]

def Listing.ofEntries (entries : List (String × Entry)) : List (String × Revision) :=
  entries.map fun entry => (entry.1, entry.2.revision)

theorem Listing.map_fst_ofEntries (entries : List (String × Entry))
    : (ofEntries entries).map (·.1) = entries.map (·.1) := by
  simp [ofEntries]

namespace IsOrdered

variable {c : Catalogue} {entries : List (String × Entry)}

theorem nodup_places (h : IsOrdered c entries) : (entries.map (·.2.place)).Nodup := by
  apply h.places.imp
  omega

theorem nodup_names (h : IsOrdered c entries) : (entries.map (·.1)).Nodup := by
  unfold List.Nodup
  rw [List.pairwise_map]
  have hplaces := h.places
  rw [List.pairwise_map] at hplaces
  apply hplaces.imp_of_mem
  -- Two entries with one name would be one entry, and its place is not below itself.
  intro a b ha hb hlt hname
  rw [h.mem_iff] at ha hb
  rw [hname, hb] at ha
  simp only [Option.some.injEq] at ha
  rw [ha] at hlt
  omega

theorem toList_perm (h : IsOrdered c entries) : c.entries.toList.Perm entries := by
  rw [List.perm_ext_iff_of_nodup]
  . intro entry
    rw [h.mem_iff, Std.TreeMap.mem_toList_iff_getElem?_eq_some]
  . apply Std.TreeMap.distinct_keys_toList.imp
    intro a b hkeys heq
    simp [heq] at hkeys
  . exact h.nodup_places.of_map

theorem size_eq (h : IsOrdered c entries) : c.size = entries.length := by
  unfold size
  rw [← Std.TreeMap.length_toList]
  exact h.toList_perm.length_eq

theorem revisions_eq (h : IsOrdered c entries) : c.revisions = entries.map (·.2.revision) := by
  have hperm : (c.entries.values.mergeSort fun a b => a.place ≤ b.place).Perm
      (entries.map (·.2)) := by
    apply (List.mergeSort_perm _ _).trans
    rw [values_eq_map_toList]
    apply h.toList_perm.map
  have hsorted : (c.entries.values.mergeSort fun a b => a.place ≤ b.place).Pairwise
      fun a b => a.place ≤ b.place := by
    have := @List.pairwise_mergeSort Entry (fun a b => decide (a.place ≤ b.place))
      (by simp; omega) (by simp; omega) c.entries.values
    simpa using this
  have hplaces : (entries.map (·.2)).Pairwise fun a b => a.place ≤ b.place := by
    have := h.places
    rw [List.pairwise_map] at this ⊢
    apply this.imp
    omega
  unfold revisions
  rw [hperm.eq_of_pairwise _ hsorted hplaces, List.map_map]
  . rfl
  . -- No two entries have the same place, so only one order is sorted.
    intro a b ha hb hab hba
    rw [hperm.mem_iff, List.mem_map] at ha
    rw [List.mem_map] at hb
    rcases ha with ⟨x, hx, rfl⟩
    rcases hb with ⟨y, hy, rfl⟩
    rw [List.inj_on_of_nodup_map h.nodup_places hx hy (by omega)]

theorem get?_eq (h : IsOrdered c entries) (name : String)
    : c.get? name = (Listing.ofEntries entries).lookup name := by
  apply Option.ext
  intro r
  -- Both sides are compared by what they find, since only the list has an order.
  rw [lookup_eq_some_iff_mem]
  . unfold get? Listing.ofEntries
    rw [Option.map_eq_some_iff, List.mem_map]
    constructor
    . intro hget
      rcases hget with ⟨entry, hentry, hr⟩
      refine ⟨(name, entry), ?_, ?_⟩
      . rw [h.mem_iff, hentry]
      . rw [hr]
    . intro hmem
      rcases hmem with ⟨⟨other, entry⟩, hentry, heq⟩
      rw [h.mem_iff] at hentry
      simp only [Prod.mk.injEq] at heq
      refine ⟨entry, ?_, heq.2⟩
      rw [← hentry, heq.1]
  . rw [Listing.map_fst_ofEntries]
    exact h.nodup_names

theorem empty (evaluator : Evaluator) : IsOrdered (Catalogue.empty evaluator) [] where
  mem_iff := by
    intro name entry
    simp [Catalogue.empty]
  places := .nil
  place_lt := by simp
  name_eq := by simp

theorem placeOf_of_mem (h : IsOrdered c entries) {entry : String × Entry}
    (hentry : entry ∈ entries) : c.placeOf entry.1 = entry.2.place := by
  rw [h.mem_iff] at hentry
  unfold placeOf
  rw [hentry]

theorem getElem?_eq_none (h : IsOrdered c entries) {name : String}
    (hname : name ∉ entries.map (·.1)) : c.entries[name]? = none := by
  cases hget : c.entries[name]? with
  | none => rfl
  | some entry =>
    rw [← h.mem_iff] at hget
    exact absurd (List.mem_map_of_mem hget) hname

theorem placeOf_lt (h : IsOrdered c entries) (f : Field)
    : c.placeOf f.name < (c.load f).nextPlace ∧ c.nextPlace ≤ (c.load f).nextPlace := by
  have ⟨_, _, hnext⟩ := c.load_eq f
  rw [hnext]
  unfold placeOf
  cases hentry : c.entries[f.name]? with
  | none => simp
  | some entry =>
    rw [← h.mem_iff] at hentry
    have := h.place_lt _ hentry
    simpa using this

theorem map_place_put (h : IsOrdered c entries) (name : String) (r : Revision)
    : (Listing.put entries name ⟨r, c.placeOf name⟩).map (·.2.place)
        =
      if name ∈ entries.map (·.1) then
        entries.map (·.2.place)
      else
        entries.map (·.2.place) ++ [c.nextPlace] := by
  -- An entry that is replaced hands its place on, and a new one comes behind all places so far.
  unfold Listing.put
  split
  . rw [List.map_map]
    apply List.map_congr_left
    intro entry hentry
    dsimp
    split
    . next heq => rw [← heq, h.placeOf_of_mem hentry]
    . rfl
  . next hname =>
    unfold placeOf
    rw [List.map_append, h.getElem?_eq_none hname]
    rfl

theorem places_put (h : IsOrdered c entries) (name : String) (r : Revision)
    : ((Listing.put entries name ⟨r, c.placeOf name⟩).map (·.2.place)).Pairwise (· < ·) := by
  rw [h.map_place_put]
  split
  . exact h.places
  . rw [List.pairwise_append]
    refine ⟨h.places, by simp, ?_⟩
    intro place hplace next hnext
    rw [List.mem_map] at hplace
    rcases hplace with ⟨entry, hentry, rfl⟩
    rw [List.mem_singleton] at hnext
    rw [hnext]
    exact h.place_lt entry hentry

theorem load (h : IsOrdered c entries) (f : Field)
    : IsOrdered (c.load f)
        (Listing.put entries f.name ⟨.next c.lastRevision f, c.placeOf f.name⟩) := by
  have ⟨hentries, _, _⟩ := c.load_eq f
  have ⟨hplace, hnext⟩ := h.placeOf_lt f
  constructor
  . intro name entry
    rw [Listing.mem_put, hentries, Std.TreeMap.getElem?_insert, h.mem_iff]
    by_cases heq : f.name = name
    . simp [heq, eq_comm]
    . simp [heq, Ne.symm heq]
  . apply h.places_put
  . intro entry hentry
    rw [Listing.mem_put] at hentry
    cases hentry with
    | inl heq => rwa [heq]
    | inr hold =>
      have := h.place_lt entry hold.1
      omega
  . intro entry hentry
    rw [Listing.mem_put] at hentry
    cases hentry with
    | inl heq =>
      rw [heq]
      rfl
    | inr hold => exact h.name_eq entry hold.1

theorem delete (h : IsOrdered c entries) (name : String)
    : IsOrdered (c.delete name) (entries.filter (·.1 ≠ name)) := by
  unfold Catalogue.delete
  constructor
  . intro other entry
    rw [List.mem_filter, Std.TreeMap.getElem?_erase, h.mem_iff]
    by_cases heq : name = other
    . simp [heq]
    . simp [heq, Ne.symm heq]
  . exact h.places.sublist ((List.filter_sublist).map _)
  . intro entry hentry
    exact h.place_lt entry (List.mem_filter.mp hentry).1
  . intro entry hentry
    exact h.name_eq entry (List.mem_filter.mp hentry).1

theorem clear (c : Catalogue) : IsOrdered c.clear [] where
  mem_iff := by
    intro name entry
    simp [Catalogue.clear]
  places := .nil
  place_lt := by simp
  name_eq := by simp

end IsOrdered

def Refines (c : Catalogue) (l : Listing) : Prop :=
  ∃ entries, IsOrdered c entries ∧ l.entries = Listing.ofEntries entries
    ∧ c.lastRevision = l.history.length

namespace Refines

variable {c : Catalogue} {l : Listing}

theorem empty (evaluator : Evaluator) : Refines (Catalogue.empty evaluator) .empty :=
  ⟨[], .empty evaluator, rfl, rfl⟩

theorem contains_eq (h : Refines c l) (name : String)
    : c.contains name = decide (name ∈ l.names) := by
  rcases h with ⟨entries, hordered, hentries, _⟩
  have hiff : c.contains name = true ↔ name ∈ l.names := by
    unfold contains Listing.names
    rw [hentries, Listing.map_fst_ofEntries, Std.TreeMap.contains_eq_isSome_getElem?,
      Option.isSome_iff_exists, List.mem_map]
    constructor
    . intro hsome
      rcases hsome with ⟨entry, hentry⟩
      rw [← hordered.mem_iff] at hentry
      exact ⟨(name, entry), hentry, rfl⟩
    . intro hmem
      rcases hmem with ⟨⟨other, entry⟩, hentry, rfl⟩
      rw [hordered.mem_iff] at hentry
      exact ⟨entry, hentry⟩
  rw [Bool.eq_iff_iff, hiff, decide_eq_true_eq]

theorem nodup_names (h : Refines c l) : l.names.Nodup := by
  rcases h with ⟨entries, hordered, hentries, _⟩
  unfold Listing.names
  rw [hentries, Listing.map_fst_ofEntries]
  exact hordered.nodup_names

theorem get?_eq (h : Refines c l) (name : String) : c.get? name = l.entries.lookup name := by
  rcases h with ⟨entries, hordered, hentries, _⟩
  rw [hentries]
  exact hordered.get?_eq name

theorem revisions_eq (h : Refines c l) : c.revisions = l.entries.map (·.2) := by
  rcases h with ⟨entries, hordered, hentries, _⟩
  rw [hordered.revisions_eq, hentries]
  simp [Listing.ofEntries]

theorem names_eq (h : Refines c l) : c.names = l.names := by
  have hrevisions := h.revisions_eq
  rcases h with ⟨entries, hordered, hentries, _⟩
  unfold names Listing.names
  rw [hrevisions, hentries, List.map_map]
  unfold Listing.ofEntries
  rw [List.map_map, List.map_map]
  apply List.map_congr_left
  exact hordered.name_eq

theorem size_eq (h : Refines c l) : c.size = l.entries.length := by
  rcases h with ⟨entries, hordered, hentries, _⟩
  rw [hordered.size_eq, hentries]
  simp [Listing.ofEntries]

theorem isEmpty_eq (h : Refines c l) : c.isEmpty = l.entries.isEmpty := by
  have hsize := h.size_eq
  unfold size at hsize
  unfold isEmpty
  rw [Std.TreeMap.isEmpty_eq_size_eq_zero, hsize]
  cases l.entries <;> rfl

theorem get?_eq_latest? (h : Refines c l) (hlatest : l.IsLatest) (name : String)
    : c.get? name = if name ∈ l.names then Listing.latest? l.history name else none := by
  cases hget : c.get? name with
  | none =>
    have hcontains := h.contains_eq name
    rw [contains_eq_isSome_get?, hget] at hcontains
    rw [if_neg (of_decide_eq_false hcontains.symm)]
  | some r =>
    rw [h.get?_eq, lookup_eq_some_iff_mem h.nodup_names] at hget
    have hname : name ∈ l.names := List.mem_map_of_mem hget
    rw [if_pos hname, hlatest name r hget]

theorem load (h : Refines c l) (f : Field) : Refines (c.load f) (l.load f) := by
  rcases h with ⟨entries, hordered, hentries, hlast⟩
  have ⟨_, hnumber, _⟩ := c.load_eq f
  refine ⟨_, hordered.load f, ?_, ?_⟩
  . unfold Listing.load Listing.ofEntries
    rw [hentries, ← hlast]
    exact Listing.put_map (fun entry : Entry => entry.revision) entries f.name
      ⟨.next c.lastRevision f, c.placeOf f.name⟩
  . unfold Listing.load
    rw [hnumber, hlast, List.length_append, List.length_singleton]

theorem loadAll (h : Refines c l) (fields : List Field)
    : Refines (c.loadAll fields) (fields.foldl Listing.load l) := by
  unfold Catalogue.loadAll
  induction fields generalizing c l with
  | nil => exact h
  | cons f fields ih => exact ih (h.load f)

theorem apply (h : Refines c l) (edit : Edit) : Refines (c.apply edit) (l.apply edit) := by
  cases edit with
  | load fields => exact h.loadAll fields
  | delete name =>
    rcases h with ⟨entries, hordered, hentries, hlast⟩
    refine ⟨_, hordered.delete name, ?_, hlast⟩
    have hdelete : (l.apply (.delete name)).entries = l.entries.filter (·.1 ≠ name) := by rfl
    rw [hdelete, hentries]
    unfold Listing.ofEntries
    rw [List.filter_map]
    rfl
  | clear =>
    rcases h with ⟨_, _, _, hlast⟩
    exact ⟨[], .clear c, rfl, hlast⟩

theorem edit?_eq (h : Refines c l) (request : Request)
    : request.edit? c.contains = request.edit? (· ∈ l.names) := by
  congr
  funext name
  exact h.contains_eq name

theorem perform (h : Refines c l) (request : Request)
    : Refines (c.perform request).1 ((l.perform? request).getD l) := by
  have ⟨hperform, _⟩ := c.perform_eq_apply request
  unfold Listing.perform?
  rw [hperform, h.edit?_eq]
  cases request.edit? (· ∈ l.names) with
  | none => exact h
  | some edit => exact h.apply edit

theorem performAll (h : Refines c l) (requests : List Request)
    : Refines (c.performAll requests).1 (l.performAll requests) := by
  induction requests generalizing c l with
  | nil => exact h
  | cons request requests ih => exact ih (h.perform request)

end Refines

theorem performAll_eq_listing (evaluator : Evaluator) (requests : List Request)
    : let c := ((Catalogue.empty evaluator).performAll requests).1
      let l := Listing.empty.performAll requests
      c.names = l.names
        ∧ l.names.Nodup
        ∧ c.revisions = l.entries.map (·.2)
        ∧ (∀ name, c.get? name = l.entries.lookup name)
        ∧ (∀ name, c.contains name = decide (name ∈ l.names))
        ∧ c.size = l.entries.length
        ∧ c.isEmpty = l.entries.isEmpty
        ∧ (∀ name,
            c.get? name = if name ∈ l.names then Listing.latest? l.history name else none)
        ∧ (∀ request,
            (c.perform request).2.isOk = (l.perform? request).isSome
              ∧ ((c.perform request).2.isOk = false → (c.perform request).1 = c)) := by
  intro c l
  have h : Refines c l := (Refines.empty evaluator).performAll requests
  have hlatest : l.IsLatest := Listing.IsLatest.empty.performAll requests
  refine ⟨h.names_eq, h.nodup_names, h.revisions_eq, h.get?_eq, h.contains_eq, h.size_eq,
    h.isEmpty_eq, h.get?_eq_latest? hlatest, ?_⟩
  intro request
  have ⟨hperform, hok⟩ := c.perform_eq_apply request
  rw [hperform, hok, h.edit?_eq]
  unfold Listing.perform?
  cases request.edit? (· ∈ l.names) <;> simp

end FormLogic.Catalogue
