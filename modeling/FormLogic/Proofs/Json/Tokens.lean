import FormLogic.Json.Token
import FormLogic.Proofs.Number.Layout
import FormLogic.Proofs.Text.Quoted

/-!
This module contains the tokens of a document and the proof that they are the tokens of its text.
-/

namespace FormLogic

namespace Document

mutual

def tokens : Document → List Token
  | array items _ => .openArray :: (itemTokens items ++ [.closeArray])
  | object members _ => .openObject :: (memberTokens members ++ [.closeObject])
  | d => [.leaf d]

def itemTokens : List Document → List Token
  | [] => []
  | [d] => d.tokens
  | d :: e :: ds => d.tokens ++ .comma :: itemTokens (e :: ds)

def memberTokens : List (Option String × Document) → List Token
  | [] => []
  | [(k, d)] => .leaf (.string k) :: .colon :: d.tokens
  | (k, d) :: m :: ms =>
    .leaf (.string k) :: .colon :: (d.tokens ++ .comma :: memberTokens (m :: ms))

end

end Document

namespace Token

theorem go_eq_ofChars (skip : Nat) (cs : List Char)
    : ofChars.go skip cs = ofChars (cs.drop skip) := by
  unfold ofChars
  induction cs generalizing skip with
  | nil => cases skip <;> rfl
  | cons c cs ih =>
    cases skip with
    | zero => rfl
    | succ skip => rw [ofChars.go, ih, List.drop_succ_cons]

theorem ofChars_cons {c : Char} {cs : List Char} {token : Token} {width : Nat}
    (hspace : isSpace c = false) (hscan : scan c cs = (token, width)) (htoken : token ≠ stray)
    : ofChars (c :: cs) = token :: ofChars (cs.drop width) := by
  rw [← go_eq_ofChars]
  unfold ofChars
  rw [ofChars.go]
  simp only [hspace, hscan, Bool.false_eq_true, ↓reduceIte]

theorem scan_numeral {c : Char} (h : Numeral.isNumeralChar c) {cs : List Char} {n : Numeral}
    {width : Nat} (hscan : Numeral.scan? (c :: cs) = some (n, width))
    : scan c cs = (leaf (.number (Number.ofNumeral? n)), width - 1) := by
  unfold scan
  split
  . exact absurd h (by decide)
  . exact absurd h (by decide)
  . exact absurd h (by decide)
  . exact absurd h (by decide)
  . exact absurd h (by decide)
  . exact absurd h (by decide)
  . exact absurd h (by decide)
  . exact absurd h (by decide)
  . exact absurd h (by decide)
  . exact absurd h (by decide)
  . rw [hscan]

theorem isSpace_eq_false {c : Char} (h : Numeral.isNumeralChar c) : isSpace c = false := by
  rw [Bool.eq_false_iff]
  intro hspace
  unfold isSpace at hspace
  simp only [Bool.or_eq_true, beq_iff_eq] at hspace
  rcases hspace with ((rfl | rfl) | rfl) | rfl
  . exact absurd h (by decide)
  . exact absurd h (by decide)
  . exact absurd h (by decide)
  . exact absurd h (by decide)

def Ends (rest : List Char) : Prop := ∀ c ∈ rest.head?, Numeral.isNumeralChar c = false

theorem scan_quote {cs : List Char} {pieces : List Text.Piece} {width : Nat}
    (hscan : Text.scan? cs = some (pieces, width))
    : scan '"' cs
        =
      (leaf (.string ((Text.Piece.join? pieces).map String.ofList)), width) := by
  unfold scan
  simp only [hscan]

theorem ofChars_quote (text : Option String) (rest : List Char)
    : ofChars (Document.quote text ++ rest) = leaf (.string text) :: ofChars rest := by
  cases text with
  | some s =>
    have htoken := scan_quote (Text.scan?_flatMap_escape s.toList rest)
    rw [Text.join?_map_char, Option.map_some, String.ofList_toList] at htoken
    unfold Document.quote Text.quote
    simp only [List.cons_append, List.append_assoc, List.nil_append]
    rw [ofChars_cons (by decide) htoken (by simp)]
    generalize s.toList.flatMap Text.escape = body
    simp
  | none =>
    have hscan : Text.scan? ('\\' :: 'u' :: 'd' :: '8' :: '0' :: '0' :: '"' :: rest)
        = some ([.half 0xD800], 7) := by
      rw [Text.scan?, Text.scan?]
      rfl
    unfold Document.quote
    simp only [List.cons_append, List.nil_append]
    rw [ofChars_cons (by decide) (scan_quote hscan) (by simp)]
    rfl

theorem scan?_beyond {rest : List Char} (hrest : Ends rest)
    : Numeral.scan? ('1' :: 'e' :: '9' :: '9' :: '9' :: rest)
        =
      some (⟨false, ['1'], [], some 999⟩, 5) := by
  have hchars : ∀ c ∈ ['1', 'e', '9', '9', '9'], Numeral.isNumeralChar c :=
    List.all_eq_true.mp rfl
  have ⟨hrun, _⟩ := Numeral.span_append hchars hrest
  simp only [List.cons_append, List.nil_append] at hrun
  unfold Numeral.scan?
  rw [hrun]
  rfl

theorem ofChars_number (value : Option Number) {rest : List Char} (hrest : Ends rest)
    : ofChars ((Document.number value).write ++ rest) = leaf (.number value) :: ofChars rest := by
  cases value with
  | some n =>
    have hstrict := n.isStrict_toNumeral
    have hscan := Numeral.scan?_append hstrict hrest
    have hchars := Numeral.isNumeralChar_of_mem_write hstrict
    rw [Number.write_toNumeral] at hscan hchars
    rw [Document.write]
    cases hwrite : n.write with
    | nil =>
      rw [← Number.write_toNumeral] at hwrite
      exact absurd hwrite (Numeral.write_ne_nil hstrict)
    | cons c cs =>
      rw [hwrite, List.cons_append] at hscan
      rw [hwrite] at hchars
      have hc := hchars c List.mem_cons_self
      have htoken := scan_numeral hc hscan
      rw [Number.ofNumeral?_toNumeral] at htoken
      rw [List.cons_append, ofChars_cons (isSpace_eq_false hc) htoken (by simp)]
      simp
  | none =>
    have htoken := scan_numeral (by decide) (scan?_beyond hrest)
    rw [Document.write]
    simp only [List.cons_append, List.nil_append]
    rw [ofChars_cons (by decide) htoken (by simp)]
    rfl

theorem ends_cons {c : Char} (h : Numeral.isNumeralChar c = false) (rest : List Char)
    : Ends (c :: rest) := by
  intro d hd
  cases hd
  exact h

theorem ofChars_openArray (cs : List Char) : ofChars ('[' :: cs) = openArray :: ofChars cs :=
  ofChars_cons (by decide) rfl (by simp)

theorem ofChars_closeArray (cs : List Char) : ofChars (']' :: cs) = closeArray :: ofChars cs :=
  ofChars_cons (by decide) rfl (by simp)

theorem ofChars_openObject (cs : List Char) : ofChars ('\x7b' :: cs) = openObject :: ofChars cs :=
  ofChars_cons (by decide) rfl (by simp)

theorem ofChars_closeObject (cs : List Char) : ofChars ('\x7d' :: cs) = closeObject :: ofChars cs :=
  ofChars_cons (by decide) rfl (by simp)

theorem ofChars_comma (cs : List Char) : ofChars (',' :: cs) = comma :: ofChars cs :=
  ofChars_cons (by decide) rfl (by simp)

theorem ofChars_colon (cs : List Char) : ofChars (':' :: cs) = colon :: ofChars cs :=
  ofChars_cons (by decide) rfl (by simp)

mutual

theorem ofChars_write {d : Document} (h : d.isIntact) {rest : List Char} (hrest : Ends rest)
    : ofChars (d.write ++ rest) = d.tokens ++ ofChars rest := by
  cases d with
  | null => rfl
  | bool b => cases b <;> rfl
  | number value => exact ofChars_number value hrest
  | string text => exact ofChars_quote text rest
  | array items closed =>
    simp only [Document.isIntact, Bool.and_eq_true] at h
    rw [Document.write, Document.tokens, List.cons_append, List.append_assoc, ofChars_openArray]
    rw [List.singleton_append, ofChars_writeItems h.2 (ends_cons (by decide) rest)]
    rw [ofChars_closeArray]
    simp
  | object members closed =>
    simp only [Document.isIntact, Bool.and_eq_true] at h
    rw [Document.write, Document.tokens, List.cons_append, List.append_assoc, ofChars_openObject]
    rw [List.singleton_append, ofChars_writeMembers h.2 (ends_cons (by decide) rest)]
    rw [ofChars_closeObject]
    simp
  | broken => exact absurd h (by decide)

theorem ofChars_writeItems {items : List Document} (h : Document.areIntact items)
    {rest : List Char} (hrest : Ends rest)
    : ofChars (Document.writeItems items ++ rest)
        =
      Document.itemTokens items ++ ofChars rest := by
  match items with
  | [] => rfl
  | [d] =>
    simp only [Document.areIntact, Bool.and_eq_true] at h
    exact ofChars_write h.1 hrest
  | d :: e :: ds =>
    rw [Document.areIntact, Bool.and_eq_true] at h
    rw [Document.writeItems, Document.itemTokens, List.append_assoc, List.append_assoc]
    rw [List.cons_append, ofChars_write h.1 (ends_cons (by decide) _), ofChars_comma]
    rw [ofChars_writeItems h.2 hrest, List.cons_append]

theorem ofChars_writeMembers {members : List (Option String × Document)}
    (h : Document.areIntactMembers members) {rest : List Char} (hrest : Ends rest)
    : ofChars (Document.writeMembers members ++ rest)
        =
      Document.memberTokens members ++ ofChars rest := by
  match members with
  | [] => rfl
  | [(k, d)] =>
    simp only [Document.areIntactMembers, Bool.and_eq_true] at h
    rw [Document.writeMembers, Document.memberTokens, List.append_assoc, ofChars_quote]
    rw [List.cons_append, ofChars_colon, ofChars_write h.1 hrest]
    rfl
  | (k, d) :: m :: ms =>
    rw [Document.areIntactMembers, Bool.and_eq_true] at h
    rw [Document.writeMembers, Document.memberTokens, List.append_assoc, ofChars_quote]
    rw [List.cons_append, ofChars_colon, List.append_assoc, List.cons_append]
    rw [ofChars_write h.1 (ends_cons (by decide) _), ofChars_comma, ofChars_writeMembers h.2 hrest]
    simp

end

end Token

end FormLogic
