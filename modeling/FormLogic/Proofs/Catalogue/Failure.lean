import FormLogic.Proofs.Catalogue.Refinement
import FormLogic.Proofs.Json.Listed

/-!
This module contains the proof that requests that are refused leave no trace. Nothing of them shows
in the answers to later requests, so all of them can be left out of a run at once.
-/

namespace FormLogic

namespace Field

theorem listOfText_eq_ok_iff (text : String) (fields : List Field)
    : listOfText text = .ok fields
        ↔
      ∃ items, Document.read text = (.array items true, true)
        ∧ items.mapM (ofDocument (Document.maxDepth - 1)) = .ok fields := by
  unfold listOfText
  simp only [Document.decode_eq_ok_iff, Document.maxDepth, Document.asList_eq_ok_iff]
  constructor
  . intro h
    rcases h with ⟨d, hread, items, rfl, hitems⟩
    exact ⟨items, hread, hitems⟩
  . intro h
    rcases h with ⟨items, hread, hitems⟩
    exact ⟨_, hread, items, rfl, hitems⟩

theorem exists_listOfText_eq_ok_iff (text : String)
    : (∃ fields, listOfText text = .ok fields)
        ↔
      ∃ items, Document.read text = (.array items true, true)
        ∧ ∀ d ∈ items, ∃ f, ofDocument (Document.maxDepth - 1) d = .ok f := by
  simp only [listOfText_eq_ok_iff, ← Document.exists_mapM_eq_ok_iff]
  constructor
  . intro h
    rcases h with ⟨fields, items, hread, hitems⟩
    exact ⟨items, hread, fields, hitems⟩
  . intro h
    rcases h with ⟨items, hread, fields, hitems⟩
    exact ⟨fields, items, hread, hitems⟩

end Field

namespace Catalogue

/--
The requests that fail. A list is refused as a whole if any of its items is no field, also behind
items that are.
-/
def Request.IsRefused (c : Catalogue) : Request → Prop
  | .loadText text => ∀ f, Field.ofText text ≠ .ok f
  | .loadListText text =>
    ∀ items, Document.read text = (.array items true, true)
      → ∃ d ∈ items, ∀ f, Field.ofDocument (Document.maxDepth - 1) d ≠ .ok f
  | .update f => c.get? f.name = none
  | .delete name | .evaluate name _ => c.get? name = none
  | _ => False

def accepted (c : Catalogue) : List Request → List Request
  | [] => []
  | request :: requests =>
    let (next, answer) := c.perform request
    if answer.isOk then request :: next.accepted requests else next.accepted requests

theorem isRefused_loadListText_iff (c : Catalogue) (text : String)
    : (Request.loadListText text).IsRefused c ↔ ∀ fields, Field.listOfText text ≠ .ok fields := by
  have h := Field.exists_listOfText_eq_ok_iff text
  unfold Request.IsRefused
  rw [← not_exists, h]
  simp

theorem edit?_eq_none_iff (c : Catalogue) (request : Request)
    : request.edit? c.contains = none ↔ request.IsRefused c := by
  cases request with
  | loadText text => cases h : Field.ofText text <;> simp [Request.edit?, Request.IsRefused, h]
  | loadListText text =>
    rw [isRefused_loadListText_iff]
    cases h : Field.listOfText text <;> simp [Request.edit?, h]
  | update f => simp [Request.edit?, Request.IsRefused, contains_eq_isSome_get?]
  | delete name => simp [Request.edit?, Request.IsRefused, contains_eq_isSome_get?]
  | evaluate name ctx => simp [Request.edit?, Request.IsRefused, contains_eq_isSome_get?]
  | _ => simp [Request.edit?, Request.IsRefused]

theorem isOk_perform_eq_false_iff (c : Catalogue) (request : Request)
    : (c.perform request).2.isOk = false ↔ request.IsRefused c := by
  have ⟨_, hok⟩ := c.perform_eq_apply request
  rw [hok, Option.isSome_eq_false_iff, Option.isNone_iff_eq_none, edit?_eq_none_iff]

theorem perform_of_isRefused {c : Catalogue} {request : Request} (h : request.IsRefused c)
    : ∃ error, c.perform request = (c, .error error) := by
  have ⟨hperform, hok⟩ := c.perform_eq_apply request
  rw [← edit?_eq_none_iff] at h
  rw [h] at hperform hok
  generalize c.perform request = result at hperform hok
  rcases result with ⟨next, _ | answer⟩
  . next error =>
    refine ⟨error, ?_⟩
    dsimp at hperform
    rw [hperform]
  . simp [Except.isOk, Except.toBool] at hok

theorem performAll_cons (c : Catalogue) (request : Request) (requests : List Request)
    : c.performAll (request :: requests)
        =
      let next := (c.perform request).1
      ((next.performAll requests).1, (c.perform request).2 :: (next.performAll requests).2) := rfl

theorem performAll_cons_of_isRefused {c : Catalogue} {failed : Request} (h : failed.IsRefused c)
    : ∃ error, ∀ rest,
        c.performAll (failed :: rest)
          =
        ((c.performAll rest).1, .error error :: (c.performAll rest).2) := by
  have ⟨error, hperform⟩ := perform_of_isRefused h
  refine ⟨error, ?_⟩
  intro rest
  rw [performAll_cons, hperform]

theorem performAll_accepted (c : Catalogue) (requests : List Request)
    : c.performAll (c.accepted requests)
        =
      ((c.performAll requests).1, (c.performAll requests).2.filter (·.isOk)) := by
  induction requests generalizing c with
  | nil => rfl
  | cons request requests ih =>
    have haccepted : c.accepted (request :: requests)
        = if (c.perform request).2.isOk then
            request :: (c.perform request).1.accepted requests
          else
            (c.perform request).1.accepted requests := by rfl
    rw [haccepted, performAll_cons]
    cases hok : (c.perform request).2.isOk with
    | true =>
      simp only [↓reduceIte, performAll_cons, ih]
      rw [List.filter_cons_of_pos hok]
    | false =>
      have ⟨error, hperform⟩ := perform_of_isRefused ((c.isOk_perform_eq_false_iff request).mp hok)
      simp only [Bool.false_eq_true, ↓reduceIte, hperform, ih]
      rfl

theorem performAll_without_failed (evaluator : Evaluator) (before : List Request)
    : let c := ((Catalogue.empty evaluator).performAll before).1
      (∀ failed : Request,
        ((c.perform failed).2.isOk = false ↔ failed.IsRefused c)
          ∧
        ((c.perform failed).2.isOk = false
          → ∃ error, ∀ rest,
              c.performAll (failed :: rest)
                =
              ((c.performAll rest).1, .error error :: (c.performAll rest).2)))
        ∧
      ∀ rest,
        c.performAll (c.accepted rest)
          =
        ((c.performAll rest).1, (c.performAll rest).2.filter (·.isOk)) := by
  intro c
  refine ⟨?_, c.performAll_accepted⟩
  intro failed
  refine ⟨c.isOk_perform_eq_false_iff failed, ?_⟩
  intro h
  rw [isOk_perform_eq_false_iff] at h
  exact performAll_cons_of_isRefused h

theorem performAll_without_list_bad_behind_good
    : let c := ((Catalogue.empty (.ofTracing false)).performAll [.load (.plain "a" "" "")]).1
      let failed := Request.loadListText "[\x7b\"name\":\"b\"\x7d,\x7b\x7d]"
      let rest := [Request.load (.plain "b" "" ""), .get "b", .update (.plain "c" "" ""), .revisions]
      (c.perform failed).2.isOk = false
        ∧ ∃ error, (c.performAll (failed :: rest)).2 = .error error :: (c.performAll rest).2 := by
  intro c failed rest
  have hfailed : (c.perform failed).2.isOk = false := by decide
  have hwithout :=
    (performAll_without_failed (.ofTracing false) [.load (.plain "a" "" "")]).1 failed
  have ⟨error, hrest⟩ := hwithout.2 hfailed
  exact ⟨hfailed, error, congrArg Prod.snd (hrest rest)⟩

end Catalogue

end FormLogic
