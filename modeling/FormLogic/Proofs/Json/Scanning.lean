import FormLogic.Proofs.Json.Tokens

/-!
This module contains the proof that tokens can be cut apart and put together where the text is. A
token depends on its own characters alone, but for a number, which also depends on what goes on with
it.
-/

namespace FormLogic

theorem Text.scan?_local {cs : List Char} {pieces : List Piece} {width : Nat}
    (h : scan? cs = some (pieces, width))
    : ∃ front back, cs = front ++ back
        ∧ front.length = width
        ∧ ∀ rest, scan? (front ++ rest) = some (pieces, width) := by
  induction cs using scan?.induct generalizing pieces width with
  | case1 => cases h
  | case2 cs =>
    rw [scan?] at h
    cases h
    exact ⟨['"'], cs, rfl, rfl, fun rest => rfl⟩
  | case3 a b c d cs ih =>
    rw [scan?] at h
    simp only [bind, Option.bind_eq_some_iff] at h
    rcases h with ⟨unit, hunit, ⟨tail, width'⟩, htail, heq⟩
    cases heq
    rcases ih htail with ⟨front, back, rfl, rfl, hfront⟩
    refine ⟨'\\' :: 'u' :: a :: b :: c :: d :: front, back, rfl, rfl, ?_⟩
    intro rest
    simp only [List.cons_append]
    rw [scan?, hunit, hfront rest]
    rfl
  | case4 e cs hunicode ih =>
    rw [scan?] at h
    . simp only [bind, Option.bind_eq_some_iff] at h
      rcases h with ⟨c, hc, ⟨tail, width'⟩, htail, heq⟩
      cases heq
      have he : e ≠ 'u' := by
        intro heq
        rw [heq] at hc
        cases hc
      rcases ih htail with ⟨front, back, rfl, rfl, hfront⟩
      refine ⟨'\\' :: e :: front, back, rfl, rfl, ?_⟩
      intro rest
      rw [List.cons_append, List.cons_append, scan?_short he hc, hfront rest]
      rfl
    . exact hunicode
  | case5 c cs hquote hunicode hshort ih =>
    rw [scan?] at h
    . simp only [bind, Option.bind_eq_some_iff] at h
      rcases h with ⟨_, hguard, ⟨tail, width'⟩, htail, heq⟩
      cases heq
      have hc : 0x20 ≤ c.toNat ∧ c ≠ '\\' := by
        unfold guard at hguard
        split at hguard
        . next hc => exact hc
        . cases hguard
      rcases ih htail with ⟨front, back, rfl, rfl, hfront⟩
      refine ⟨c :: front, back, rfl, rfl, ?_⟩
      intro rest
      rw [List.cons_append, scan?_plain hquote hc.2 hc.1, hfront rest]
      rfl
    . exact hquote
    . exact hunicode
    . exact hshort

namespace Numeral

theorem takeWhile_append_congr {p : Char → Bool} (front : List Char) {as bs : List Char}
    (h : as.takeWhile p = bs.takeWhile p)
    : (front ++ as).takeWhile p = (front ++ bs).takeWhile p := by
  rw [List.takeWhile_append, List.takeWhile_append, h]

theorem scan?_congr {cs ds : List Char}
    (h : cs.takeWhile isNumeralChar = ds.takeWhile isNumeralChar) : scan? cs = scan? ds := by
  unfold scan?
  rw [h]

theorem isNumeralChar_of_scan? {c : Char} {cs : List Char} {result : Numeral × Nat}
    (h : scan? (c :: cs) = some result) : isNumeralChar c := by
  cases hc : isNumeralChar c with
  | true => rfl
  | false =>
    unfold scan? at h
    rw [List.takeWhile_cons, hc] at h
    cases h

theorem scan?_width_le {cs : List Char} {n : Numeral} {width : Nat}
    (h : scan? cs = some (n, width)) : width ≤ cs.length := by
  unfold scan? at h
  simp only [bind, Option.bind_eq_some_iff] at h
  rcases h with ⟨⟨n', rest⟩, _, heq⟩
  cases heq
  have hrun := (List.takeWhile_prefix isNumeralChar (l := cs)).length_le
  omega

end Numeral

namespace Token

def mark? : Token → Option Char
  | openArray => some '['
  | closeArray => some ']'
  | openObject => some '\x7b'
  | closeObject => some '\x7d'
  | comma => some ','
  | colon => some ':'
  | leaf _ => none
  | stray => none

theorem scan_of_mark? {c : Char} {token : Token} (h : token.mark? = some c) (cs : List Char)
    : scan c cs = (token, 0) := by
  cases token with
  | leaf d => cases h
  | stray => cases h
  | _ =>
    cases h
    rfl

theorem isNumeralChar_of_mark? {c : Char} {token : Token} (h : token.mark? = some c)
    : Numeral.isNumeralChar c = false := by
  cases token with
  | leaf d => cases h
  | stray => cases h
  | _ =>
    cases h
    decide

structure IsLeaf (d : Document) : Prop where
  isIntact : d.isIntact
  tokens_eq : d.tokens = [leaf d]

/--
A token stands for its own characters, whatever follows them. Only a numeral goes on for as long as
it can.
-/
def IsLocal (c : Char) (cs : List Char) (token : Token) (width : Nat) : Prop :=
  ∃ front back, cs = front ++ back
    ∧ front.length = width
    ∧ ∀ rest, rest.takeWhile Numeral.isNumeralChar = back.takeWhile Numeral.isNumeralChar
        → scan c (front ++ rest) = (token, width)

theorem isLocal_of_mark? {c : Char} {token : Token} (h : token.mark? = some c) (cs : List Char)
    : IsLocal c cs token 0 := ⟨[], cs, rfl, rfl, fun rest _ => scan_of_mark? h rest⟩

theorem isLocal_word {c : Char} {word cs : List Char} {token : Token} (hword : word.isPrefixOf cs)
    (h : ∀ rest, scan c (word ++ rest) = (token, word.length))
    : IsLocal c cs token word.length := by
  rw [List.isPrefixOf_iff_prefix] at hword
  rcases hword with ⟨back, rfl⟩
  exact ⟨word, back, rfl, rfl, fun rest _ => h rest⟩

theorem isLocal_numeral {c : Char} {cs : List Char} {n : Numeral} {width : Nat}
    (h : Numeral.scan? (c :: cs) = some (n, width))
    : IsLocal c cs (leaf (.number (Number.ofNumeral? n))) (width - 1) := by
  have hc := Numeral.isNumeralChar_of_scan? h
  have hwidth := Numeral.scan?_width_le h
  refine ⟨cs.take (width - 1), cs.drop (width - 1), (List.take_append_drop _ _).symm, ?_, ?_⟩
  . rw [List.length_cons] at hwidth
    rw [List.length_take]
    omega
  . intro rest hrest
    apply scan_numeral hc
    have hrun := Numeral.takeWhile_append_congr (c :: cs.take (width - 1)) hrest
    rw [List.cons_append, List.cons_append, List.take_append_drop] at hrun
    rw [Numeral.scan?_congr hrun, h]

theorem scan_cases {c : Char} {cs : List Char} {token : Token} {width : Nat}
    (h : scan c cs = (token, width)) (hstray : token ≠ stray)
    : (token.mark? = some c ∧ width = 0)
        ∨
      ∃ d, token = leaf d ∧ IsLeaf d ∧ IsLocal c cs token width := by
  unfold scan at h
  split at h
  -- the six marks
  . cases h
    exact .inl ⟨rfl, rfl⟩
  . cases h
    exact .inl ⟨rfl, rfl⟩
  . cases h
    exact .inl ⟨rfl, rfl⟩
  . cases h
    exact .inl ⟨rfl, rfl⟩
  . cases h
    exact .inl ⟨rfl, rfl⟩
  . cases h
    exact .inl ⟨rfl, rfl⟩
  -- the three words
  . split at h
    . next hword =>
      cases h
      exact .inr ⟨_, rfl, ⟨rfl, rfl⟩, isLocal_word hword fun rest => rfl⟩
    . cases h
      exact absurd rfl hstray
  . split at h
    . next hword =>
      cases h
      exact .inr ⟨_, rfl, ⟨rfl, rfl⟩, isLocal_word hword fun rest => rfl⟩
    . cases h
      exact absurd rfl hstray
  . split at h
    . next hword =>
      cases h
      exact .inr ⟨_, rfl, ⟨rfl, rfl⟩, isLocal_word hword fun rest => rfl⟩
    . cases h
      exact absurd rfl hstray
  -- texts and numerals
  . split at h
    . next pieces width' hscan =>
      cases h
      rcases Text.scan?_local hscan with ⟨front, back, hcs, hfront, hlocal⟩
      exact .inr ⟨_, rfl, ⟨rfl, rfl⟩, front, back, hcs, hfront,
        fun rest _ => scan_quote (hlocal rest)⟩
    . cases h
      exact absurd rfl hstray
  . split at h
    . next n width' hscan =>
      cases h
      exact .inr ⟨_, rfl, ⟨rfl, rfl⟩, isLocal_numeral hscan⟩
    . cases h
      exact absurd rfl hstray

theorem scan_isLocal {c : Char} {cs : List Char} {token : Token} {width : Nat}
    (h : scan c cs = (token, width)) (hstray : token ≠ stray) : IsLocal c cs token width := by
  rcases scan_cases h hstray with ⟨hmark, rfl⟩ | ⟨_, _, _, hlocal⟩
  . exact isLocal_of_mark? hmark cs
  . exact hlocal

theorem ofChars_space {c : Char} (h : isSpace c) (cs : List Char)
    : ofChars (c :: cs) = ofChars cs := by
  unfold ofChars
  rw [ofChars.go, if_pos h]

theorem ofChars_stray {c : Char} {cs : List Char} {width : Nat} (hspace : isSpace c = false)
    (h : scan c cs = (stray, width)) : ofChars (c :: cs) = [stray] := by
  unfold ofChars
  rw [ofChars.go]
  simp only [hspace, h, Bool.false_eq_true, ↓reduceIte]

@[elab_as_elim]
theorem ofChars_induction {P : List Char → Prop} (nil : P [])
    (space : ∀ c cs, isSpace c → P cs → P (c :: cs))
    (stray : ∀ c cs, ofChars (c :: cs) = [stray] → P (c :: cs))
    (token : ∀ c front back token, scan c (front ++ back) = (token, front.length) → token ≠ .stray
      → (∀ rest, rest.takeWhile Numeral.isNumeralChar = back.takeWhile Numeral.isNumeralChar
          → ofChars (c :: (front ++ rest)) = token :: ofChars rest)
      → P back → P (c :: (front ++ back)))
    (cs : List Char) : P cs := by
  match cs with
  | [] => exact nil
  | c :: cs =>
    cases hspace : isSpace c with
    | true => exact space c cs hspace (ofChars_induction nil space stray token cs)
    | false =>
      rcases hscan : scan c cs with ⟨found, width⟩
      by_cases hstray : found = .stray
      . rw [hstray] at hscan
        exact stray c cs (ofChars_stray hspace hscan)
      . rcases scan_isLocal hscan hstray with ⟨front, back, rfl, rfl, hlocal⟩
        apply token c front back found hscan hstray
        . intro rest hrest
          rw [ofChars_cons hspace (hlocal rest hrest) hstray, List.drop_left]
        . exact ofChars_induction nil space stray token back
termination_by cs.length

theorem takeWhile_append_of_ends (cs : List Char) {rest : List Char} (h : Ends rest)
    : (cs ++ rest).takeWhile Numeral.isNumeralChar = cs.takeWhile Numeral.isNumeralChar := by
  have hrest : rest.takeWhile Numeral.isNumeralChar 
      = ([] : List Char).takeWhile Numeral.isNumeralChar := by
    cases rest with
    | nil => rfl
    | cons c rest => exact List.takeWhile_cons_of_neg (by simp [h c rfl])
  rw [Numeral.takeWhile_append_congr cs hrest, List.append_nil]

theorem ofChars_append {cs rest : List Char} (h : stray ∉ ofChars cs) (hrest : Ends rest)
    : ofChars (cs ++ rest) = ofChars cs ++ ofChars rest := by
  induction cs using ofChars_induction with
  | nil => rfl
  | space c cs hspace ih =>
    rw [ofChars_space hspace] at h
    rw [List.cons_append, ofChars_space hspace, ofChars_space hspace, ih h]
  | stray c cs hstray =>
    rw [hstray] at h
    exact absurd List.mem_cons_self h
  | token c front back token hscan hstray hlocal ih =>
    rw [hlocal back rfl, List.mem_cons, not_or] at h
    have htoken := hlocal (back ++ rest) (takeWhile_append_of_ends back hrest)
    rw [List.cons_append, List.append_assoc, htoken, hlocal back rfl, ih h.2, List.cons_append]

theorem exists_of_ofChars_eq_append {cs : List Char} {before after : List Token} {mark : Token}
    (h : ofChars cs = before ++ mark :: after) {x : Char} (hmark : mark.mark? = some x)
    : ∃ a b, cs = a ++ x :: b ∧ ofChars a = before ∧ ofChars b = after := by
  induction cs using ofChars_induction generalizing before with
  | nil => simp [ofChars, ofChars.go] at h
  | space c cs hspace ih =>
    rw [ofChars_space hspace] at h
    rcases ih h with ⟨a, b, rfl, ha, hb⟩
    refine ⟨c :: a, b, rfl, ?_, hb⟩
    rw [ofChars_space hspace, ha]
  | stray c cs hstray =>
    rw [hstray, List.singleton_eq_append_iff] at h
    simp only [List.cons.injEq, reduceCtorEq, and_false, or_false] at h
    rw [h.2.1] at hmark
    cases hmark
  | token c front back token hscan hstray hlocal ih =>
    rw [hlocal back rfl] at h
    cases before with
    | nil =>
      rw [List.nil_append, List.cons.injEq] at h
      rw [h.1] at hscan
      rcases scan_cases hscan (h.1 ▸ hstray) with ⟨hc, hfront⟩ | ⟨d, hd, _⟩
      . rw [hc, Option.some.injEq] at hmark
        rw [List.eq_nil_of_length_eq_zero hfront, hmark]
        exact ⟨[], back, rfl, rfl, h.2⟩
      . rw [hd] at hmark
        cases hmark
    | cons first before =>
      rw [List.cons_append, List.cons.injEq] at h
      rcases ih h.2 with ⟨a, b, rfl, ha, hb⟩
      refine ⟨c :: (front ++ a), b, by simp, ?_, hb⟩
      have hends := ends_cons (isNumeralChar_of_mark? hmark) b
      rw [hlocal a (takeWhile_append_of_ends a hends).symm, ha, h.1]

theorem isLeaf_of_mem_ofChars {cs : List Char} {d : Document} (h : leaf d ∈ ofChars cs)
    : IsLeaf d := by
  induction cs using ofChars_induction with
  | nil => exact absurd h List.not_mem_nil
  | space c cs hspace ih =>
    rw [ofChars_space hspace] at h
    exact ih h
  | stray c cs hstray =>
    rw [hstray, List.mem_singleton] at h
    cases h
  | token c front back token hscan hstray hlocal ih =>
    rw [hlocal back rfl, List.mem_cons] at h
    rcases h with rfl | h
    . rcases scan_cases hscan hstray with ⟨hmark, _⟩ | ⟨e, he, hleaf, _⟩
      . cases hmark
      . cases he
        exact hleaf
    . exact ih h

def IsBlank (cs : List Char) : Prop := ∀ c ∈ cs, isSpace c

theorem ofChars_isBlank_append {cs : List Char} (h : IsBlank cs) (rest : List Char)
    : ofChars (cs ++ rest) = ofChars rest := by
  induction cs with
  | nil => rfl
  | cons c cs ih =>
    have ⟨hc, hcs⟩ := List.forall_mem_cons.mp h
    rw [List.cons_append, ofChars_space hc, ih hcs]

theorem isBlank_of_ofChars_eq_nil {cs : List Char} (h : ofChars cs = []) : IsBlank cs := by
  induction cs using ofChars_induction with
  | nil => exact List.forall_mem_nil _
  | space c cs hspace ih =>
    rw [ofChars_space hspace] at h
    exact List.forall_mem_cons.mpr ⟨hspace, ih h⟩
  | stray c cs hstray =>
    rw [hstray] at h
    cases h
  | token c front back token hscan hstray hlocal ih =>
    rw [hlocal back rfl] at h
    cases h

end Token

end FormLogic
