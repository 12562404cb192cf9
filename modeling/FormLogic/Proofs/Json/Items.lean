import FormLogic.Proofs.Json.Acceptance
import Mathlib.Data.List.Forall2

/-!
This module contains the texts of the items of a list. A text is read as a list exactly if it is
written as texts between brackets, with commas between them and blanks anywhere around, each of
which can be read by itself; and the items of the list are what these texts are read as.
-/

namespace FormLogic

namespace Document

inductive Lists : List Char → List String → Prop where
  | none {blanks : List Char} (h : Token.IsBlank blanks) : Lists blanks []
  | last {before after : List Char} (hbefore : Token.IsBlank before) (hafter : Token.IsBlank after)
      (t : String) : Lists (before ++ t.toList ++ after) [t]
  | more {before after rest : List Char} (hbefore : Token.IsBlank before)
      (hafter : Token.IsBlank after) (t u : String) {texts : List String}
      (hrest : Lists rest (u :: texts))
      : Lists (before ++ t.toList ++ after ++ ',' :: rest) (t :: u :: texts)

/--
A text that is written as a list of texts, each of which is JSON by itself.
-/
structure IsListText (text : String) (texts : List String) : Prop where
  layout : ∃ before items after, Token.IsBlank before ∧ Token.IsBlank after
    ∧ text.toList = before ++ '[' :: (items ++ ']' :: after)
    ∧ Lists items texts
  alone : ∀ t ∈ texts, (Document.read t).2

end Document

namespace Token

open Document

mutual

theorem stray_notMem_tokens (d : Document) : stray ∉ d.tokens := by
  cases d with
  | array items closed =>
    rw [Document.tokens]
    simp [stray_notMem_itemTokens items]
  | object members closed =>
    rw [Document.tokens]
    simp [stray_notMem_memberTokens members]
  | _ => simp [Document.tokens]

theorem stray_notMem_itemTokens (items : List Document) : stray ∉ itemTokens items := by
  match items with
  | [] => simp [itemTokens]
  | [d] => exact stray_notMem_tokens d
  | d :: e :: ds =>
    rw [itemTokens]
    simp [stray_notMem_tokens d, stray_notMem_itemTokens (e :: ds)]

theorem stray_notMem_memberTokens (members : List (Option String × Document))
    : stray ∉ memberTokens members := by
  match members with
  | [] => simp [memberTokens]
  | [(k, d)] => simp [memberTokens, stray_notMem_tokens d]
  | (k, d) :: m :: ms =>
    rw [memberTokens]
    simp [stray_notMem_tokens d, stray_notMem_memberTokens (m :: ms)]

end

theorem IsBlank.ends_append {blanks rest : List Char} (h : IsBlank blanks) (hrest : Ends rest)
    : Ends (blanks ++ rest) := by
  cases blanks with
  | nil => exact hrest
  | cons c blanks =>
    apply ends_cons
    cases hc : Numeral.isNumeralChar c with
    | false => rfl
    | true =>
      have hspace : isSpace c := h c List.mem_cons_self
      rw [isSpace_eq_false hc] at hspace
      cases hspace

theorem ofChars_padded {before after : List Char} (hbefore : IsBlank before)
    (hafter : IsBlank after) {t : String} {d : Document} (ht : Document.read t = (d, true))
    {rest : List Char} (hrest : Ends rest)
    : ofChars (before ++ t.toList ++ after ++ rest) = d.tokens ++ ofChars rest := by
  have htokens := ((read_eq_iff t d).mp ht).2
  have hstray : stray ∉ ofChars t.toList := by
    rw [htokens]
    exact stray_notMem_tokens d
  rw [List.append_assoc, List.append_assoc, ofChars_isBlank_append hbefore,
    ofChars_append hstray (hafter.ends_append hrest), ofChars_isBlank_append hafter, htokens]

theorem ofChars_lists {cs : List Char} {texts : List String} (h : Lists cs texts)
    {items : List Document}
    (hitems : List.Forall₂ (fun t d => Document.read t = (d, true)) texts items)
    {rest : List Char} (hrest : Ends rest)
    : ofChars (cs ++ rest) = itemTokens items ++ ofChars rest := by
  induction h generalizing items with
  | none hblanks =>
    cases hitems
    exact ofChars_isBlank_append hblanks rest
  | last hbefore hafter t =>
    cases hitems with
    | cons ht htexts =>
      cases htexts
      exact ofChars_padded hbefore hafter ht hrest
  | more hbefore hafter t u _ ih =>
    cases hitems with
    | @cons _ d _ ds ht htexts =>
      have hne : ds ≠ [] := by
        intro hnil
        rw [hnil] at htexts
        cases htexts
      rw [List.append_assoc, List.cons_append,
        ofChars_padded hbefore hafter ht (ends_cons (by decide) _), ofChars_comma, ih htexts,
        itemTokens_cons d hne, List.append_assoc, List.cons_append]

end Token

namespace Document

theorem read_ofList_of_ofChars {d : Document} (hd : d.isIntact) {cs : List Char}
    (h : Token.ofChars cs = d.tokens) : Document.read (String.ofList cs) = (d, true) := by
  rw [read_eq_iff, String.toList_ofList]
  exact ⟨hd, h⟩

theorem exists_lists {items : List Document} (hitems : areIntact items) {cs : List Char}
    (h : Token.ofChars cs = itemTokens items)
    : ∃ texts, Lists cs texts
        ∧ List.Forall₂ (fun t d => Document.read t = (d, true)) texts items := by
  have hblank : Token.IsBlank [] := List.forall_mem_nil _
  match items with
  | [] => exact ⟨[], .none (Token.isBlank_of_ofChars_eq_nil h), .nil⟩
  | [d] =>
    rw [areIntact, Bool.and_eq_true] at hitems
    have hlast := Lists.last hblank hblank (String.ofList cs)
    rw [String.toList_ofList, List.nil_append, List.append_nil] at hlast
    exact ⟨_, hlast, .cons (read_ofList_of_ofChars hitems.1 h) .nil⟩
  | d :: e :: ds =>
    rw [areIntact, Bool.and_eq_true] at hitems
    rcases Token.exists_of_ofChars_eq_append h rfl with
      ⟨front, rest, rfl, hd, hrest⟩
    rcases exists_lists hitems.2 hrest with ⟨texts, hlists, htexts⟩
    cases htexts with
    | cons hu htexts =>
      have hmore := Lists.more hblank hblank (String.ofList front) _ hlists
      rw [String.toList_ofList, List.nil_append, List.append_nil] at hmore
      exact ⟨_, hmore, .cons (read_ofList_of_ofChars hitems.1 hd) (.cons hu htexts)⟩

theorem IsListText.read_eq {text : String} {texts : List String} (h : IsListText text texts)
    : Document.read text = (.array (texts.map fun t => (Document.read t).1) true, true) := by
  rcases h with ⟨⟨before, items, after, hbefore, hafter, htext, hlists⟩, halone⟩
  have hread : ∀ t ∈ texts, Document.read t = ((Document.read t).1, true) := by
    intro t ht
    rw [← halone t ht]
  have hitems : List.Forall₂ (fun t d => Document.read t = (d, true)) texts
      (texts.map fun t => (Document.read t).1) := by
    rw [List.forall₂_map_right_iff, List.forall₂_same]
    exact hread
  have hintact : areIntact (texts.map fun t => (Document.read t).1) := by
    apply areIntact_map
    intro t ht
    exact ((read_eq_iff t _).mp (hread t ht)).1
  have hnone : Token.ofChars after = [] := by
    rw [← List.append_nil after, Token.ofChars_isBlank_append hafter]
    rfl
  rw [read_eq_iff, isIntact, tokens, htext, Token.ofChars_isBlank_append hbefore,
    Token.ofChars_openArray, Token.ofChars_lists hlists hitems (Token.ends_cons (by decide) after),
    Token.ofChars_closeArray, hnone]
  exact ⟨hintact, rfl⟩

theorem exists_isListText {text : String} {items : List Document} {closed : Bool}
    (h : Document.read text = (.array items closed, true)) : ∃ texts, IsListText text texts := by
  rw [read_eq_iff, isIntact, Bool.and_eq_true, tokens] at h
  rcases h with ⟨⟨_, hitems⟩, htokens⟩
  rw [← List.nil_append (Token.openArray :: _)] at htokens
  rcases Token.exists_of_ofChars_eq_append htokens rfl with
    ⟨before, rest, htext, hbefore, hrest⟩
  rcases Token.exists_of_ofChars_eq_append hrest rfl with
    ⟨inner, after, rfl, hinner, hafter⟩
  rcases exists_lists hitems hinner with ⟨texts, hlists, htexts⟩
  refine ⟨texts, ⟨before, inner, after, ?_, ?_, htext, hlists⟩, ?_⟩
  . exact Token.isBlank_of_ofChars_eq_nil hbefore
  . exact Token.isBlank_of_ofChars_eq_nil hafter
  . have halone := htexts.imp (S := fun t d => (Document.read t).2 ∧ Document.read t = (d, true))
      fun t d ht => ⟨by rw [ht], ht⟩
    exact ((List.forall₂_and_left _ _).mp halone).1

end Document

end FormLogic
