import FormLogic.Proofs.Json.Reading
import FormLogic.Proofs.Json.Scanning

/-!
This module contains the proof that a text is read to its end only if it has the tokens of an intact
document. Tokens that lead to the end begin with those of a document, which is settled on the stack,
and the tokens behind it lead on from there.
-/

namespace FormLogic.Document

open Reading

theorem foldl_stop_ne_complete (tokens : List Token) (stack : List Container) (result : Document)
    : tokens.foldl step (stop stack) ≠ .complete result := by
  unfold stop
  induction tokens with
  | nil => simp
  | cons token tokens ih => exact ih

theorem foldl_complete_eq_complete_iff (d : Document) (tokens : List Token) (result : Document)
    : tokens.foldl step (.complete d) = .complete result ↔ tokens = [] ∧ d = result := by
  cases tokens with
  | nil => simp
  | cons token tokens =>
    have h : (token :: tokens).foldl step (.complete d) = .stopped d := by
      rw [List.foldl_cons]
      induction tokens with
      | nil => rfl
      | cons token' tokens ih => exact ih
    simp [h]

theorem step_keyOrClose {token : Token} (h : token ≠ .closeObject) (stack : List Container)
    : step (.inside stack .keyOrClose) token = step (.inside stack .key) token := by
  cases token with
  | closeObject => exact absurd rfl h
  | _ => rfl

theorem itemTokens_cons (d : Document) {ds : List Document} (h : ds ≠ [])
    : itemTokens (d :: ds) = d.tokens ++ .comma :: itemTokens ds := by
  cases ds with
  | nil => exact absurd rfl h
  | cons e ds => rfl

theorem memberTokens_cons (k : Option String) (d : Document)
    {ms : List (Option String × Document)} (h : ms ≠ [])
    : memberTokens ((k, d) :: ms)
        =
      .leaf (.string k) :: .colon :: (d.tokens ++ .comma :: memberTokens ms) := by
  cases ms with
  | nil => exact absurd rfl h
  | cons m ms => rfl

theorem exists_key_of_foldl {tokens : List Token} {members : List (Option String × Document)}
    {stack : List Container} {result : Document}
    (h : tokens.foldl step (.inside (.object members :: stack) .key) = .complete result)
    : ∃ k rest, tokens = .leaf (.string k) :: .colon :: rest
        ∧ rest.foldl step (.inside (.member k members :: stack) .value) = .complete result := by
  match tokens with
  | [] => cases h
  | .leaf (.string k) :: rest =>
    match rest with
    | [] => cases h
    | .colon :: rest => exact ⟨k, rest, rfl, h⟩
    | .leaf _ :: rest | .openArray :: rest | .openObject :: rest | .closeArray :: rest
    | .closeObject :: rest | .comma :: rest | .stray :: rest =>
      exact absurd h (foldl_stop_ne_complete rest _ result)
  | .leaf .null :: rest | .leaf (.bool _) :: rest | .leaf (.number _) :: rest
  | .leaf (.array _ _) :: rest | .leaf (.object _ _) :: rest | .leaf .broken :: rest
  | .openArray :: rest | .openObject :: rest | .closeArray :: rest | .closeObject :: rest
  | .comma :: rest | .colon :: rest | .stray :: rest =>
    exact absurd h (foldl_stop_ne_complete rest _ result)

def HaveLeaves (tokens : List Token) : Prop := ∀ d, .leaf d ∈ tokens → Token.IsLeaf d

theorem HaveLeaves.of_suffix {tokens rest : List Token} (h : HaveLeaves tokens)
    (hrest : rest <:+ tokens) : HaveLeaves rest := fun d hd => h d (hrest.mem hd)

def SettlesFirst (tokens : List Token) (stack : List Container) (result : Document) : Prop :=
  ∃ d rest, d.isIntact ∧ tokens = d.tokens ++ rest
    ∧ rest.foldl step (settle d stack) = .complete result

-- Items and members begin with a value among the same tokens, which is why they come second in the
-- order by which the three theorems recurse.
mutual

theorem settlesFirst_of_value {tokens : List Token} (hleaves : HaveLeaves tokens)
    {stack : List Container} {result : Document}
    (h : tokens.foldl step (.inside stack .value) = .complete result)
    : SettlesFirst tokens stack result := by
  match tokens with
  | [] => cases h
  | .leaf d :: rest =>
    have hd := hleaves d List.mem_cons_self
    refine ⟨d, rest, hd.isIntact, ?_, h⟩
    rw [hd.tokens_eq]
    rfl
  | .openArray :: rest =>
    match rest with
    | [] => cases h
    | token :: rest =>
      by_cases hclose : token = .closeArray
      . rw [hclose] at h ⊢
        exact ⟨.array [] true, rest, rfl, rfl, h⟩
      . have hitems : (token :: rest).foldl step (.inside (.array [] :: stack) .value)
            = .complete result := by
          rw [List.foldl_cons, ← step_itemOrClose hclose]
          exact h
        rcases settlesFirst_of_items (hleaves.of_suffix (List.suffix_cons _ _)) hitems with
          ⟨pending, after, _, hpending, htokens, hafter⟩
        refine ⟨.array pending true, after, hpending, ?_, hafter⟩
        rw [htokens, Document.tokens]
        simp
  | .openObject :: rest =>
    match rest with
    | [] => cases h
    | token :: rest =>
      by_cases hclose : token = .closeObject
      . rw [hclose] at h ⊢
        exact ⟨.object [] true, rest, rfl, rfl, h⟩
      . have hmembers : (token :: rest).foldl step (.inside (.object [] :: stack) .key)
            = .complete result := by
          rw [List.foldl_cons, ← step_keyOrClose hclose]
          exact h
        rcases settlesFirst_of_members (hleaves.of_suffix (List.suffix_cons _ _)) hmembers with
          ⟨pending, after, _, hpending, htokens, hafter⟩
        refine ⟨.object pending true, after, hpending, ?_, hafter⟩
        rw [htokens, Document.tokens]
        simp
  | .closeArray :: rest | .closeObject :: rest | .comma :: rest | .colon :: rest | .stray :: rest =>
    exact absurd h (foldl_stop_ne_complete rest stack result)
termination_by (tokens.length, 0)

theorem settlesFirst_of_items {tokens : List Token} (hleaves : HaveLeaves tokens)
    {items : List Document} {stack : List Container} {result : Document}
    (h : tokens.foldl step (.inside (.array items :: stack) .value) = .complete result)
    : ∃ pending rest, pending ≠ [] ∧ areIntact pending
        ∧ tokens = itemTokens pending ++ .closeArray :: rest
        ∧ rest.foldl step (settle (.array (items.reverse ++ pending) true) stack)
            = .complete result := by
  rcases settlesFirst_of_value hleaves h with ⟨d, after, hd, htokens, hafter⟩
  match after with
  | [] => cases hafter
  | .closeArray :: rest =>
    refine ⟨[d], rest, List.cons_ne_nil d [], ?_, htokens, ?_⟩
    . rw [areIntact, hd]
      rfl
    . rw [← List.reverse_cons]
      exact hafter
  | .comma :: after =>
    have hlength : after.length < tokens.length := by
      rw [htokens, List.length_append, List.length_cons]
      omega
    have hsuffix : after <:+ tokens := by
      rw [htokens, List.append_cons]
      exact List.suffix_append _ after
    have hstep : after.foldl step (.inside (.array (d :: items) :: stack) .value)
        = .complete result := hafter
    rcases settlesFirst_of_items (hleaves.of_suffix hsuffix) hstep with
      ⟨pending, rest, hne, hpending, hafter, hrest⟩
    refine ⟨d :: pending, rest, List.cons_ne_nil d pending, ?_, ?_, ?_⟩
    . rw [areIntact, hd, hpending]
      rfl
    . rw [htokens, hafter, itemTokens_cons d hne, List.append_assoc, List.cons_append]
    . rw [List.append_cons, ← List.reverse_cons]
      exact hrest
  | .leaf _ :: rest | .openArray :: rest | .openObject :: rest | .closeObject :: rest
  | .colon :: rest | .stray :: rest =>
    exact absurd hafter (foldl_stop_ne_complete rest _ result)
termination_by (tokens.length, 1)

theorem settlesFirst_of_members {tokens : List Token} (hleaves : HaveLeaves tokens)
    {members : List (Option String × Document)} {stack : List Container} {result : Document}
    (h : tokens.foldl step (.inside (.object members :: stack) .key) = .complete result)
    : ∃ pending rest, pending ≠ [] ∧ areIntactMembers pending
        ∧ tokens = memberTokens pending ++ .closeObject :: rest
        ∧ rest.foldl step (settle (.object (members.reverse ++ pending) true) stack)
            = .complete result := by
  rcases exists_key_of_foldl h with ⟨k, behind, hkey, hvalue⟩
  have hbehind : behind <:+ tokens := by
    rw [hkey]
    exact List.suffix_append [_, _] behind
  have hlength : behind.length < tokens.length := by
    rw [hkey, List.length_cons, List.length_cons]
    omega
  rcases settlesFirst_of_value (hleaves.of_suffix hbehind) hvalue with
    ⟨d, after, hd, htokens, hafter⟩
  match after with
  | [] => cases hafter
  | .closeObject :: rest =>
    refine ⟨[(k, d)], rest, List.cons_ne_nil _ [], ?_, ?_, ?_⟩
    . rw [areIntactMembers, hd]
      rfl
    . rw [hkey, htokens]
      rfl
    . rw [← List.reverse_cons]
      exact hafter
  | .comma :: after =>
    have hlength' : after.length < behind.length := by
      rw [htokens, List.length_append, List.length_cons]
      omega
    have hsuffix : after <:+ behind := by
      rw [htokens, List.append_cons]
      exact List.suffix_append _ after
    have hstep : after.foldl step (.inside (.object ((k, d) :: members) :: stack) .key)
        = .complete result := hafter
    rcases settlesFirst_of_members (hleaves.of_suffix (hsuffix.trans hbehind)) hstep with
      ⟨pending, rest, hne, hpending, hafter, hrest⟩
    refine ⟨(k, d) :: pending, rest, List.cons_ne_nil _ pending, ?_, ?_, ?_⟩
    . rw [areIntactMembers, hd, hpending]
      rfl
    . rw [hkey, htokens, hafter, memberTokens_cons k d hne]
      simp
    . rw [List.append_cons, ← List.reverse_cons]
      exact hrest
  | .leaf _ :: rest | .openArray :: rest | .openObject :: rest | .closeArray :: rest
  | .colon :: rest | .stray :: rest =>
    exact absurd hafter (foldl_stop_ne_complete rest _ result)
termination_by (tokens.length, 1)

end

theorem ofTokens_eq_iff {tokens : List Token} (hleaves : HaveLeaves tokens) (d : Document)
    : ofTokens tokens = (d, true) ↔ d.isIntact ∧ tokens = d.tokens := by
  constructor
  . intro h
    have hcomplete : tokens.foldl step (.inside [] .value) = .complete d := by
      unfold ofTokens at h
      cases hfold : tokens.foldl step (.inside [] .value) with
      | complete e =>
        rw [hfold] at h
        cases h
        rfl
      | inside stack expected =>
        rw [hfold] at h
        cases h
      | stopped e =>
        rw [hfold] at h
        cases h
    rcases settlesFirst_of_value hleaves hcomplete with ⟨e, rest, he, htokens, hrest⟩
    have ⟨hnil, heq⟩ := (foldl_complete_eq_complete_iff e rest d).mp hrest
    rw [hnil, List.append_nil] at htokens
    rw [← heq]
    exact ⟨he, htokens⟩
  . intro h
    unfold ofTokens
    rw [h.2, foldl_tokens h.1]
    rfl

theorem read_eq_iff (text : String) (d : Document)
    : Document.read text = (d, true) ↔ d.isIntact ∧ Token.ofChars text.toList = d.tokens :=
  ofTokens_eq_iff (fun _ hd => Token.isLeaf_of_mem_ofChars hd) d

end FormLogic.Document
