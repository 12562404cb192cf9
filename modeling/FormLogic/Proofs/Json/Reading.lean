import FormLogic.Json.Reader
import FormLogic.Proofs.Json.Tokens

/-!
This module contains the proof that reading the text of an intact document gives the document back.
The reader is a fold over tokens, so what the tokens of one document do to an open stack is shown
for every stack: they settle the document on it.
-/

namespace FormLogic.Document

open Reading

theorem exists_tokens_eq_cons (d : Document)
    : ∃ token tokens, d.tokens = token :: tokens ∧ token ≠ .closeArray := by
  cases d with
  | array items closed => exact ⟨_, _, rfl, by simp⟩
  | object members closed => exact ⟨_, _, rfl, by simp⟩
  | _ => exact ⟨_, _, rfl, by simp⟩

theorem step_itemOrClose {token : Token} (h : token ≠ .closeArray) (stack : List Container)
    : step (.inside stack .itemOrClose) token = step (.inside stack .value) token := by
  cases token with
  | closeArray => exact absurd rfl h
  | _ => rfl

theorem foldl_itemOrClose (d : Document) (ds : List Document) (rest : List Token)
    (stack : List Container)
    : (itemTokens (d :: ds) ++ rest).foldl step (.inside stack .itemOrClose)
        =
      (itemTokens (d :: ds) ++ rest).foldl step (.inside stack .value) := by
  have ⟨token, tokens, htokens, hfirst⟩ := d.exists_tokens_eq_cons
  have ⟨more, hmore⟩ : ∃ more, itemTokens (d :: ds) = d.tokens ++ more := by
    cases ds with
    | nil => exact ⟨[], (List.append_nil _).symm⟩
    | cons e ds => exact ⟨_, rfl⟩
  rw [hmore, htokens, List.cons_append, List.cons_append, List.foldl_cons, List.foldl_cons]
  rw [step_itemOrClose hfirst]

theorem foldl_keyOrClose (m : Option String × Document) (ms : List (Option String × Document))
    (rest : List Token) (stack : List Container)
    : (memberTokens (m :: ms) ++ rest).foldl step (.inside stack .keyOrClose)
        =
      (memberTokens (m :: ms) ++ rest).foldl step (.inside stack .key) := by
  cases ms with
  | nil => rfl
  | cons l ms => rfl

mutual

theorem foldl_tokens {d : Document} (h : d.isIntact) (stack : List Container)
    : d.tokens.foldl step (.inside stack .value) = settle d stack := by
  cases d with
  | array items closed =>
    rw [isIntact, Bool.and_eq_true] at h
    have hopen : step (.inside stack .value) .openArray
        = .inside (.array [] :: stack) .itemOrClose := rfl
    rw [h.1, tokens, List.foldl_cons, hopen]
    match items with
    | [] => rfl
    | d :: ds =>
      rw [foldl_itemOrClose, foldl_itemTokens h.2 (List.cons_ne_nil d ds)]
      rfl
  | object members closed =>
    rw [isIntact, Bool.and_eq_true] at h
    have hopen : step (.inside stack .value) .openObject
        = .inside (.object [] :: stack) .keyOrClose := rfl
    rw [h.1, tokens, List.foldl_cons, hopen]
    match members with
    | [] => rfl
    | m :: ms =>
      rw [foldl_keyOrClose, foldl_memberTokens h.2 (List.cons_ne_nil m ms)]
      rfl
  | broken => exact absurd h (by decide)
  | _ => rfl

theorem foldl_itemTokens {pending : List Document} (h : areIntact pending)
    (hpending : pending ≠ []) (items : List Document) (stack : List Container)
    : (itemTokens pending ++ [Token.closeArray]).foldl step
          (.inside (.array items :: stack) .value)
        =
      settle (.array (items.reverse ++ pending) true) stack := by
  match pending with
  | [] => exact absurd rfl hpending
  | [d] =>
    rw [areIntact, Bool.and_eq_true] at h
    have hclose : step (settle d (.array items :: stack)) .closeArray
        = settle (.array (d :: items).reverse true) stack := rfl
    rw [itemTokens, List.foldl_append, foldl_tokens h.1, List.foldl_cons, hclose]
    simp
  | d :: e :: ds =>
    rw [areIntact, Bool.and_eq_true] at h
    have hcomma : step (settle d (.array items :: stack)) .comma
        = .inside (.array (d :: items) :: stack) .value := rfl
    rw [itemTokens, List.append_assoc, List.foldl_append, foldl_tokens h.1, List.cons_append]
    rw [List.foldl_cons, hcomma, foldl_itemTokens h.2 (List.cons_ne_nil e ds)]
    simp

theorem foldl_memberTokens {pending : List (Option String × Document)}
    (h : areIntactMembers pending) (hpending : pending ≠ [])
    (members : List (Option String × Document)) (stack : List Container)
    : (memberTokens pending ++ [Token.closeObject]).foldl step
          (.inside (.object members :: stack) .key)
        =
      settle (.object (members.reverse ++ pending) true) stack := by
  have hkey : ∀ k, step (.inside (.object members :: stack) .key) (.leaf (.string k))
      = .inside (.member k members :: stack) .colon := by
    intro k
    rfl
  have hcolon : ∀ k, step (.inside (.member k members :: stack) .colon) .colon
      = .inside (.member k members :: stack) .value := by
    intro k
    rfl
  match pending with
  | [] => exact absurd rfl hpending
  | [(k, d)] =>
    rw [areIntactMembers, Bool.and_eq_true] at h
    have hclose : step (settle d (.member k members :: stack)) .closeObject
        = settle (.object ((k, d) :: members).reverse true) stack := rfl
    rw [memberTokens, List.cons_append, List.foldl_cons, hkey, List.cons_append, List.foldl_cons]
    rw [hcolon, List.foldl_append, foldl_tokens h.1, List.foldl_cons, hclose]
    simp
  | (k, d) :: m :: ms =>
    rw [areIntactMembers, Bool.and_eq_true] at h
    have hcomma : step (settle d (.member k members :: stack)) .comma
        = .inside (.object ((k, d) :: members) :: stack) .key := rfl
    rw [memberTokens, List.cons_append, List.foldl_cons, hkey, List.cons_append, List.foldl_cons]
    rw [hcolon, List.append_assoc, List.foldl_append, foldl_tokens h.1, List.cons_append]
    rw [List.foldl_cons, hcomma, foldl_memberTokens h.2 (List.cons_ne_nil m ms)]
    simp

end

/--
Reading is inverse to writing. Numbers beyond the range and halves of surrogate pairs count as
intact here, since they leave the rest of the text readable.
-/
theorem read_write {d : Document} (h : d.isIntact)
    : Document.read (String.ofList d.write) = (d, true) := by
  have hends : Token.Ends [] := by simp [Token.Ends]
  have htokens := Token.ofChars_write h hends
  have hnil : Token.ofChars [] = [] := rfl
  rw [List.append_nil, hnil, List.append_nil] at htokens
  unfold Document.read ofTokens
  rw [String.toList_ofList, htokens, foldl_tokens h]
  rfl

theorem areIntact_map {α : Type} {write : α → Document} {values : List α}
    (h : ∀ value ∈ values, (write value).isIntact) : areIntact (values.map write) := by
  induction values with
  | nil => rfl
  | cons value values ih =>
    rw [List.forall_mem_cons] at h
    rw [List.map_cons, areIntact, Bool.and_eq_true]
    exact ⟨h.1, ih h.2⟩

theorem areIntactMembers_member? {α : Type} (key : String) {write : α → Document} {value : Option α}
    (h : ∀ v ∈ value, (write v).isIntact) : areIntactMembers (member? key write value) := by
  cases value with
  | none => rfl
  | some v =>
    rw [member?, areIntactMembers, Bool.and_eq_true]
    exact ⟨h v rfl, rfl⟩

end FormLogic.Document
