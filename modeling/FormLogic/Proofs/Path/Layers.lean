import FormLogic.Proofs.Comparison.Equivalence
import FormLogic.Proofs.Path.Parts
import Mathlib.Data.List.Forall2

/-!
This module contains the proof of what a path leads to when objects are laid over one another. Only
whole members are replaced, so a path leads either to a member that has it as its key, or into one
layer alone: the uppermost one that has a member for the first step.
-/

namespace FormLogic

namespace Json

theorem find?_insert (members : List (String × Json)) (key other : String) (value : Json)
    : find? (insert members key value) other
        =
      if key = other then some value else find? members other := by
  induction members with
  | nil => rfl
  | cons first members ih =>
    rw [insert]
    split
    . rfl
    . split
      . next heq =>
        rw [find?, find?, ← heq]
        split
        . rfl
        . rfl
      . next hne =>
        rw [find?, find?, ih]
        split
        . next hfirst =>
          rw [if_neg]
          rwa [← hfirst]
        . rfl

def insertAll (members extra : List (String × Json)) : List (String × Json) :=
  extra.foldl (fun members m => insert members m.1 m.2) members

theorem find?_insertAll {extra : List (String × Json)} (h : (extra.map (·.1)).Nodup)
    (members : List (String × Json)) (key : String)
    : find? (insertAll members extra) key = (find? extra key).or (find? members key) := by
  induction extra generalizing members with
  | nil => rfl
  | cons first extra ih =>
    rw [List.map_cons, List.nodup_cons] at h
    have hrest := ih h.2 (insert members first.1 first.2)
    rw [find?_insert] at hrest
    rw [find?]
    split
    . next heq =>
      -- The key comes only once, so what is put in later leaves it alone.
      have hnone : find? extra key = none := by
        rw [← Option.not_isSome_iff_eq_none, isSome_find?_iff, ← heq]
        exact h.1
      rw [hnone, if_pos heq] at hrest
      exact hrest
    . next hne =>
      rw [if_neg hne] at hrest
      exact hrest

theorem find?_foldl_insertAll {layers : List (List (String × Json))}
    (h : ∀ layer ∈ layers, (layer.map (·.1)).Nodup) (base : List (String × Json)) (key : String)
    : find? (layers.foldl insertAll base) key
        =
      (base :: layers).reverse.findSome? (find? · key) := by
  induction layers generalizing base with
  | nil =>
    rw [List.reverse_singleton, List.findSome?_singleton]
    rfl
  | cons layer layers ih =>
    rw [List.forall_mem_cons] at h
    have hlayers := ih h.2 (insertAll base layer)
    rw [List.reverse_cons, List.findSome?_append, List.findSome?_singleton,
      find?_insertAll h.1] at hlayers
    rw [List.foldl_cons, hlayers, List.reverse_cons, List.reverse_cons, List.findSome?_append,
      List.findSome?_append, List.findSome?_singleton, List.findSome?_singleton, Option.or_assoc]

end Json

/--
Objects in memory, each at its position. What is laid over an object is written into a copy of it.
-/
structure Memory where
  objects : List (List (String × Json))

namespace Memory

def copy (m : Memory) (i : Nat) : Memory := ⟨m.objects ++ m.objects[i]?.toList⟩

def write (m : Memory) (i : Nat) (key : String) (value : Json) : Memory :=
  ⟨m.objects.modify i (Json.insert · key value)⟩

def overlay (m : Memory) (base layer : Nat) : Memory × Nat :=
  let members := m.objects[layer]?.getD []
  let i := m.objects.length
  (members.foldl (fun m member => m.write i member.1 member.2) (m.copy base), i)

def overlayAll (m : Memory) (base : Nat) : List Nat → Memory × Nat
  | [] => (m, base)
  | layer :: layers =>
    let (m, i) := m.overlay base layer
    m.overlayAll i layers

theorem write_last (objects : List (List (String × Json))) (members : List (String × Json))
    (key : String) (value : Json)
    : (Memory.mk (objects ++ [members])).write objects.length key value
        =
      ⟨objects ++ [Json.insert members key value]⟩ := by
  unfold write
  congr 1
  induction objects with
  | nil => rfl
  | cons first objects ih => exact congrArg (first :: ·) ih

theorem foldl_write_last (objects : List (List (String × Json)))
    (members extra : List (String × Json))
    : extra.foldl (fun m member => m.write objects.length member.1 member.2)
          (Memory.mk (objects ++ [members]))
        =
      ⟨objects ++ [Json.insertAll members extra]⟩ := by
  induction extra generalizing members with
  | nil => rfl
  | cons first extra ih =>
    rw [List.foldl_cons, write_last, ih]
    rfl

theorem overlay_eq {m : Memory} {i j : Nat} {base layer : List (String × Json)}
    (hbase : m.objects[i]? = some base) (hlayer : m.objects[j]? = some layer)
    : m.overlay i j = (⟨m.objects ++ [Json.insertAll base layer]⟩, m.objects.length) := by
  unfold overlay copy
  rw [hbase, hlayer]
  exact congrArg (·, m.objects.length) (foldl_write_last m.objects base layer)

theorem overlayAll_spec {m : Memory} {i : Nat} {js : List Nat} {base : List (String × Json)}
    {layers : List (List (String × Json))} (hbase : m.objects[i]? = some base)
    (hlayers : List.Forall₂ (fun j layer => m.objects[j]? = some layer) js layers)
    : m.objects <+: (m.overlayAll i js).1.objects
        ∧ (m.overlayAll i js).1.objects[(m.overlayAll i js).2]?
            = some (layers.foldl Json.insertAll base) := by
  induction layers generalizing m i js base with
  | nil =>
    cases hlayers
    exact ⟨List.prefix_rfl, hbase⟩
  | cons layer layers ih =>
    cases hlayers with
    | @cons j _ js _ hlayer hlayers =>
      have hlast : (Memory.mk (m.objects ++ [Json.insertAll base layer])).objects[m.objects.length]?
          = some (Json.insertAll base layer) := List.getElem?_concat_length
      -- The layers that are still to come are found where they were.
      have hkept : List.Forall₂ (fun k layer' =>
          (Memory.mk (m.objects ++ [Json.insertAll base layer])).objects[k]? = some layer')
          js layers := by
        apply hlayers.imp
        intro k layer' hlayer'
        rw [← hlayer']
        exact List.getElem?_append_left (List.getElem?_eq_some_iff.mp hlayer').1
      have hrest := ih hlast hkept
      unfold overlayAll
      rw [overlay_eq hbase hlayer]
      exact ⟨(List.prefix_append _ _).trans hrest.1, hrest.2⟩

end Memory

namespace Context

def overlayAll (ctx : Context) (layers : List Json) : Context := layers.foldl overlay ctx

/--
The uppermost layer that has a member for the first step of a path, and the base if there is none.
-/
def entered (base : List (String × Json)) (layers : List (List (String × Json))) (path : String)
    : List (String × Json) :=
  let enters layer := (Path.segments path).head?.any fun first => (Json.find? layer first).isSome
  (layers.reverse.find? enters).getD base

theorem overlayAll_object (base : List (String × Json)) (layers : List (List (String × Json)))
    : overlayAll ⟨.object base⟩ (layers.map .object)
        =
      ⟨.object (layers.foldl Json.insertAll base)⟩ := by
  induction layers generalizing base with
  | nil => rfl
  | cons layer layers ih => exact ih (Json.insertAll base layer)

theorem get?_object_congr {as bs : List (String × Json)} {path : String}
    (hliteral : Json.find? as path = Json.find? bs path)
    (hfirst : ∀ first ∈ (Path.segments path).head?, Json.find? as first = Json.find? bs first)
    : (Context.mk (.object as)).get? path = (Context.mk (.object bs)).get? path := by
  unfold get? literal?
  dsimp only
  rw [hliteral]
  split
  . rfl
  . split
    . rfl
    . next segments hnil =>
      cases hsegments : Path.segments path with
      | nil => exact absurd hsegments hnil
      | cons first rest =>
        rw [hsegments] at hfirst
        unfold Json.descend? Json.part?
        dsimp only
        rw [hfirst first rfl]

theorem entered_mem (base : List (String × Json)) (layers : List (List (String × Json)))
    (path : String) : entered base layers path ∈ base :: layers := by
  unfold entered
  dsimp only
  cases hfind : layers.reverse.find? _ with
  | none => exact List.mem_cons_self
  | some layer =>
    have hlayer := List.mem_of_find?_eq_some hfind
    rw [List.mem_reverse] at hlayer
    exact List.mem_cons_of_mem base hlayer

theorem findSome?_or {α β : Type} (f : α → Option β) (as : List α) (a : α)
    : (as.findSome? f).or (f a) = f ((as.find? fun a => (f a).isSome).getD a) := by
  induction as with
  | nil => rfl
  | cons first as ih =>
    rw [List.findSome?_cons, List.find?_cons]
    cases hfirst : f first with
    | none => exact ih
    | some b => exact hfirst.symm

theorem find?_entered {base : List (String × Json)} {layers : List (List (String × Json))}
    {path first : String} (h : (Path.segments path).head? = some first)
    : Json.find? (entered base layers path) first
        =
      (base :: layers).reverse.findSome? (Json.find? · first) := by
  rw [List.reverse_cons, List.findSome?_append, List.findSome?_singleton, findSome?_or]
  unfold entered
  rw [h]
  rfl

theorem get?_overlayAll {layers : List (List (String × Json))}
    (h : ∀ layer ∈ layers, (layer.map (·.1)).Nodup) (base : List (String × Json)) (path : String)
    : let ctx := overlayAll ⟨.object base⟩ (layers.map .object)
      (∀ v, (base :: layers).reverse.findSome? (Json.find? · path) = some v
          → ctx.get? path = some v)
        ∧ ((base :: layers).reverse.findSome? (Json.find? · path) = none
            → ctx.get? path = (Context.mk (.object (entered base layers path))).get? path)
        ∧ ∀ (m : Memory) (i : Nat) (js : List Nat),
            m.objects[i]? = some base
              → List.Forall₂ (fun j layer => m.objects[j]? = some layer) js layers
              → m.objects <+: (m.overlayAll i js).1.objects
                ∧ (m.overlayAll i js).1.objects[(m.overlayAll i js).2]?.map .object
                    = some ctx.data := by
  intro ctx
  have hctx : ctx = ⟨.object (layers.foldl Json.insertAll base)⟩ := overlayAll_object base layers
  rw [hctx]
  refine ⟨?_, ?_, ?_⟩
  . intro v hv
    rw [← Json.find?_foldl_insertAll h] at hv
    exact get?_of_literal? hv
  . intro hnone
    apply get?_object_congr
    . have hentered := List.mem_reverse.mpr (entered_mem base layers path)
      rw [Json.find?_foldl_insertAll h, hnone]
      exact (List.findSome?_eq_none_iff.mp hnone _ hentered).symm
    . intro first hfirst
      rw [find?_entered hfirst, Json.find?_foldl_insertAll h]
  . intro m i js hbase hlayers
    have hmemory := Memory.overlayAll_spec hbase hlayers
    refine ⟨hmemory.1, ?_⟩
    rw [hmemory.2]
    rfl

theorem get?_overlayAll_two_layers
    : let base : List (String × Json) := [("a", .object [("b", .null), ("c", .null)])]
      let layers : List (List (String × Json)) :=
        [[("a", .object [("c", .string "hidden")]), ("a.b", .string "literal")],
          [("a", .object [("d", .string "shown")])]]
      let ctx := overlayAll ⟨.object base⟩ (layers.map .object)
      let m : Memory := ⟨base :: layers⟩
      let after := m.overlayAll 0 [1, 2]
      (∀ layer ∈ layers, (layer.map (·.1)).Nodup)
        ∧ ctx.get? "a.b" = some (.string "literal")
        ∧ ctx.get? "a.c" = none
        ∧ ctx.get? "a.d" = some (.string "shown")
        ∧ m.objects[0]? = some base
        ∧ List.Forall₂ (fun j layer => m.objects[j]? = some layer) [1, 2] layers
        ∧ base :: layers <+: after.1.objects
        ∧ after.1.objects[after.2]?.map .object = some ctx.data := by
  intro base layers ctx m after
  have h : ∀ layer ∈ layers, (layer.map (·.1)).Nodup := by decide
  have hnested (path : String) := (get?_overlayAll h base path).2.1
  have hlayers : List.Forall₂ (fun j layer => m.objects[j]? = some layer) [1, 2] layers :=
    .cons rfl (.cons rfl .nil)
  have ⟨hkept, hlast⟩ := (get?_overlayAll h base "a.b").2.2 m 0 [1, 2] rfl hlayers
  refine ⟨h, ?_, ?_, ?_, rfl, hlayers, hkept, hlast⟩
  . exact (get?_overlayAll h base "a.b").1 _ rfl
  . exact hnested "a.c" rfl
  . exact hnested "a.d" rfl

end Context

end FormLogic
