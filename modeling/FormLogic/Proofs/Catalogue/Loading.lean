import FormLogic.Proofs.Catalogue.Failure
import FormLogic.Proofs.Json.Items
import FormLogic.Proofs.Json.Room

/-!
This module contains the proof that it makes no difference how fields are loaded: from the text of a
list, all at once, one after the other, or one after the other from their own texts. A field's own
text leaves more room than the list around it, and is read all the same.
-/

namespace FormLogic

open Document

theorem Operator.widens_ofDocument : Widens Operator.ofDocument := by
  intro room d op h
  unfold ofDocument at h ⊢
  split at h
  . exact h
  . split at h
    . cases h
    . exact h
  . cases h

theorem LogicToken.widens_ofDocument : Widens LogicToken.ofDocument :=
  widens_asList (widens_const _)

theorem Condition.widens_ofDocument : Widens Condition.ofDocument := by
  apply RecordForm.widens_read
  unfold form
  simp only [List.forall_mem_cons]
  refine ⟨?_, ?_, ?_, ?_, List.forall_mem_nil _⟩
  . exact Slot.widens_ofMember (widens_const _) _ _ _ _
  . exact Slot.widens_ofMember (widens_const _) _ _ _ _
  . exact Slot.widens_ofMember Operator.widens_ofDocument _ _ _ _
  . exact Slot.widens_ofMember widens_asValue _ _ _ _

theorem Validation.widens_ofDocument : Widens Validation.ofDocument := by
  apply RecordForm.widens_read
  unfold form
  simp only [List.forall_mem_cons]
  refine ⟨?_, ?_, ?_, ?_, ?_, ?_, List.forall_mem_nil _⟩
  . exact Slot.widens_ofMember (widens_const _) _ _ _ _
  . exact Slot.widens_ofMember (widens_const _) _ _ _ _
  . exact Slot.widens_ofMember (widens_asOption LogicToken.widens_ofDocument) _ _ _ _
  . exact Slot.widens_ofMember (widens_const _) _ _ _ _
  . exact Slot.widens_ofMember (widens_asOption Operator.widens_ofDocument) _ _ _ _
  . exact Slot.widens_ofMember widens_asValue _ _ _ _

namespace Field

theorem widens_ofDocument : Widens Field.ofDocument := by
  apply RecordForm.widens_read
  unfold form
  simp only [List.forall_mem_cons]
  refine ⟨?_, ?_, ?_, ?_, ?_, ?_, List.forall_mem_nil _⟩
  . exact Slot.widens_ofMember (widens_const _) _ _ _ _
  . exact Slot.widens_ofMember (widens_const _) _ _ _ _
  . exact Slot.widens_ofMember (widens_const _) _ _ _ _
  . exact Slot.widens_ofMember (widens_asList Condition.widens_ofDocument) _ _ _ _
  . exact Slot.widens_ofMember LogicToken.widens_ofDocument _ _ _ _
  . have hvalidations := widens_asOption (widens_asList Validation.widens_ofDocument)
    exact Slot.widens_ofMember hvalidations _ _ _ _

theorem ofText_of_read {text : String} {d : Document} {f : Field}
    (hread : Document.read text = (d, true)) (h : ofDocument (maxDepth - 1) d = .ok f)
    : ofText text = .ok f := by
  unfold ofText
  rw [decode_eq_ok_iff]
  exact ⟨d, hread, widens_ofDocument _ d f h⟩

theorem ofText_of_listOfText {text : String} {fields : List Field}
    (h : listOfText text = .ok fields) {texts : List String} (htexts : IsListText text texts)
    : List.Forall₂ (fun t f => ofText t = .ok f) texts fields := by
  rw [listOfText_eq_ok_iff] at h
  rcases h with ⟨items, hread, hitems⟩
  rw [htexts.read_eq, Prod.mk.injEq, Document.array.injEq] at hread
  rw [mapM_eq_ok_iff, ← hread.1.1, List.forall₂_map_left_iff] at hitems
  have hboth := (List.forall₂_and_left _ _).mpr ⟨htexts.alone, hitems⟩
  apply hboth.imp
  intro t f ht
  apply ofText_of_read _ ht.2
  rw [← ht.1]

end Field

namespace Catalogue

theorem performAll_eq_loadAll {requests : List Request} {fields : List Field}
    {answer : Field → Answer}
    (h : List.Forall₂ (fun request f =>
      ∀ c : Catalogue, c.perform request = (c.load f, .ok (answer f))) requests fields)
    (c : Catalogue)
    : c.performAll requests = (c.loadAll fields, fields.map fun f => .ok (answer f)) := by
  induction h generalizing c with
  | nil => rfl
  | @cons request f requests fields hrequest _ ih =>
    rw [performAll_cons, hrequest c]
    dsimp only
    rw [ih (c.load f)]
    rfl

theorem loadAll_append (c : Catalogue) (xs ys : List Field)
    : c.loadAll (xs ++ ys) = (c.loadAll xs).loadAll ys := List.foldl_append

theorem performAll_map_load (c : Catalogue) (fields : List Field)
    : c.performAll (fields.map .load) = (c.loadAll fields, fields.map fun _ => .ok .done) := by
  apply performAll_eq_loadAll
  rw [List.forall₂_map_left_iff, List.forall₂_same]
  intro f _ c
  rfl

theorem performAll_map_loadText (c : Catalogue) {texts : List String} {fields : List Field}
    (h : List.Forall₂ (fun t f => Field.ofText t = .ok f) texts fields)
    : c.performAll (texts.map .loadText)
        =
      (c.loadAll fields, fields.map fun f => .ok (.name f.name)) := by
  apply performAll_eq_loadAll
  rw [List.forall₂_map_left_iff]
  apply h.imp
  intro t f ht c
  simp only [perform, ht]

theorem perform_loadListText_agrees {text : String} {fields : List Field}
    (h : Field.listOfText text = .ok fields) (c : Catalogue)
    : let loaded := c.loadAll fields
      let names := fields.map (·.name)
      c.perform (.loadListText text) = (loaded, .ok (.names names))
        ∧ c.perform (.loadAll fields) = (loaded, .ok (.names names))
        ∧ c.performAll (fields.map .load) = (loaded, fields.map fun _ => .ok .done)
        ∧ (∃ texts, IsListText text texts)
        ∧ (∀ texts, IsListText text texts
            → c.performAll (texts.map .loadText) = (loaded, names.map fun name => .ok (.name name)))
        ∧ ∀ xs ys,
            let both := c.loadAll (xs ++ ys)
            let first := xs.map (·.name)
            let second := ys.map (·.name)
            c.perform (.loadAll (xs ++ ys)) = (both, .ok (.names (first ++ second)))
              ∧ c.performAll [.loadAll xs, .loadAll ys]
                  = (both, [.ok (.names first), .ok (.names second)]) := by
  intro loaded names
  refine ⟨?_, rfl, c.performAll_map_load fields, ?_, ?_, ?_⟩
  . simp only [perform, h]
    rfl
  . rw [Field.listOfText_eq_ok_iff] at h
    rcases h with ⟨items, hread, _⟩
    exact exists_isListText hread
  . intro texts htexts
    rw [c.performAll_map_loadText (Field.ofText_of_listOfText h htexts), List.map_map]
    rfl
  . intro xs ys both first second
    constructor
    . simp only [perform, List.map_append]
      rfl
    . exact congrArg (·, _) (c.loadAll_append xs ys).symm

theorem perform_loadListText_agrees_repeated_name
    : let c := (Catalogue.empty (.ofTracing false)).load (.plain "a" "" "")
      let text := "[ \x7b\"name\":\"b\"\x7d, [\"a\", \"A\"] ,\x7b\"name\":\"b\"\x7d]\n"
      let texts := ["\x7b\"name\":\"b\"\x7d", "[\"a\", \"A\"]", "\x7b\"name\":\"b\"\x7d"]
      let fields := [Field.plain "b" "" "", .plain "a" "A" "", .plain "b" "" ""]
      Field.listOfText text = .ok fields
        ∧ IsListText text texts
        ∧ c.performAll (texts.map .loadText)
            = ((c.perform (.loadListText text)).1,
              [.ok (.name "b"), .ok (.name "a"), .ok (.name "b")]) := by
  intro c text texts fields
  have hnone : Token.IsBlank [] := List.forall_mem_nil _
  have hspace : Token.IsBlank [' '] := by simp [Token.IsBlank, Token.isSpace]
  have hline : Token.IsBlank ['\n'] := by simp [Token.IsBlank, Token.isSpace]
  have hlists := Lists.more hspace hnone texts[0] texts[1]
    (.more hspace hspace texts[1] texts[2] (.last hnone hnone texts[2]))
  have hlist : IsListText text texts :=
    ⟨⟨[], _, ['\n'], hnone, hline, by decide, hlists⟩, by decide⟩
  have h : Field.listOfText text = .ok fields := by
    rw [Field.listOfText_eq_ok_iff]
    refine ⟨_, hlist.read_eq, ?_⟩
    rw [mapM_eq_ok_iff]
    exact .cons rfl (.cons rfl (.cons rfl .nil))
  have ⟨htext, _, _, _, htexts, _⟩ := perform_loadListText_agrees h c
  refine ⟨h, hlist, ?_⟩
  rw [htext, htexts texts hlist]
  rfl

end Catalogue

end FormLogic
