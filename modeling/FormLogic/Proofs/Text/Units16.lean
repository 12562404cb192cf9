import FormLogic.Text.Units16

/-!
This module contains the proof that texts can be told from their UTF-16 code units. A character
without surrogates and the first half of a surrogate pair are never the same unit, so the first unit
decides how many of them belong to the first character. For the same reason a unit stands for a
character just if that character takes no other.
-/

namespace FormLogic.Text

theorem toNat_not_half (c : Char) : c.toNat < 0xD800 ∨ (0xDFFF < c.toNat ∧ c.toNat < 0x110000) :=
  c.valid

theorem unitsOf_append_ne_nil (c : Char) (units : List Nat) : unitsOf c ++ units ≠ [] := by
  unfold unitsOf
  split <;> simp

theorem unitsOf_append_inj {c d : Char} {as bs : List Nat} (h : unitsOf c ++ as = unitsOf d ++ bs)
    : c = d ∧ as = bs := by
  have hc := toNat_not_half c
  have hd := toNat_not_half d
  rw [← Char.toNat_inj]
  unfold unitsOf at h
  split at h
  . split at h
    . simpa using h
    . -- A half of a pair is no character by itself.
      simp only [List.cons_append, List.nil_append, List.cons.injEq] at h
      omega
  . split at h
    . simp only [List.cons_append, List.nil_append, List.cons.injEq] at h
      omega
    . simp only [List.cons_append, List.nil_append, List.cons.injEq] at h
      refine ⟨?_, h.2.2⟩
      omega

theorem units16_injective {as bs : List Char} (h : units16 as = units16 bs) : as = bs := by
  induction as generalizing bs with
  | nil =>
    cases bs with
    | nil => rfl
    | cons d bs => exact absurd h.symm (unitsOf_append_ne_nil d _)
  | cons c as ih =>
    cases bs with
    | nil => exact absurd h (unitsOf_append_ne_nil c _)
    | cons d bs =>
      unfold units16 at h ih
      rw [List.flatMap_cons, List.flatMap_cons] at h
      have ⟨hhead, hrest⟩ := unitsOf_append_inj h
      rw [hhead, ih hrest]

theorem compareUnits_eq_eq_iff (as bs : List Char) : compareUnits as bs = .eq ↔ as = bs := by
  unfold compareUnits
  rw [Std.compare_eq_iff_eq]
  constructor
  . exact units16_injective
  . intro h
    rw [h]

theorem length_units16 (cs : List Char)
    : (units16 cs).length = cs.length + cs.countP fun c => 0xFFFF < c.toNat := by
  unfold units16
  induction cs with
  | nil => rfl
  | cons c cs ih =>
    rw [List.flatMap_cons, List.length_append, ih, List.length_cons, List.countP_cons]
    simp only [decide_eq_true_eq]
    unfold unitsOf
    split
    . rw [if_neg (by omega), List.length_singleton]
      omega
    . rw [if_pos (by omega), List.length_cons, List.length_singleton]
      omega

theorem charAtUnit?_cons_of_lt {c : Char} {offset : Nat} (h : offset < (unitsOf c).length)
    (cs : List Char)
    : charAtUnit? (c :: cs) offset = if c.toNat ≤ 0xFFFF then some c else none := by
  have hc := toNat_not_half c
  unfold charAtUnit? units16
  rw [List.flatMap_cons, List.getElem?_append_left h]
  unfold unitsOf at h ⊢
  split at h
  . next hsmall =>
    have hoffset : offset = 0 := by simpa using h
    have hhalf : isHalf c.toNat = false := by
      simp only [isHalf, Bool.and_eq_false_iff, decide_eq_false_iff_not]
      omega
    rw [if_pos hsmall, if_pos (by omega), hoffset]
    simp [hhalf]
  . next hlarge =>
    rw [if_neg hlarge, if_neg (by omega)]
    have hoffset : offset = 0 ∨ offset = 1 := by
      simp only [List.length_cons, List.length_nil] at h
      omega
    rcases hoffset with rfl | rfl
    . have hhalf : isHalf (0xD800 + (c.toNat - 0x10000) / 0x400) = true := by
        simp only [isHalf, Bool.and_eq_true, decide_eq_true_eq]
        omega
      simp [hhalf]
    . have hhalf : isHalf (0xDC00 + (c.toNat - 0x10000) % 0x400) = true := by
        simp only [isHalf, Bool.and_eq_true, decide_eq_true_eq]
        omega
      simp [hhalf]

theorem charAtUnit?_append (before cs : List Char) (offset : Nat)
    : charAtUnit? (before ++ cs) ((units16 before).length + offset) = charAtUnit? cs offset := by
  unfold charAtUnit? units16
  rw [List.flatMap_append, List.getElem?_append_right (Nat.le_add_right _ _),
    Nat.add_sub_cancel_left]

theorem charAtUnit?_cons_add (c : Char) (cs : List Char) (offset : Nat)
    : charAtUnit? (c :: cs) ((unitsOf c).length + offset) = charAtUnit? cs offset := by
  have h := charAtUnit?_append [c] cs offset
  rwa [List.singleton_append, units16, List.flatMap_singleton] at h

theorem isSome_charAtUnit?_iff (cs : List Char) (offset : Nat)
    : (charAtUnit? cs offset).isSome
        ↔
      ∃ unit, (units16 cs)[offset]? = some unit ∧ isHalf unit = false := by
  unfold charAtUnit?
  cases (units16 cs)[offset]? with
  | none => simp
  | some unit => cases isHalf unit <;> simp

theorem length_unitsOf (c : Char) : (unitsOf c).length = if c.toNat ≤ 0xFFFF then 1 else 2 := by
  unfold unitsOf
  split
  . rw [if_pos (by omega), List.length_singleton]
  . rw [if_neg (by omega), List.length_cons, List.length_singleton]

theorem exists_append_of_charAtUnit? {cs : List Char} {offset : Nat} {c : Char}
    (h : charAtUnit? cs offset = some c)
    : ∃ before after, cs = before ++ c :: after ∧ (units16 before).length = offset
        ∧ c.toNat ≤ 0xFFFF := by
  induction cs generalizing offset with
  | nil => simp [charAtUnit?, units16] at h
  | cons d cs ih =>
    by_cases hoffset : offset < (unitsOf d).length
    . rw [charAtUnit?_cons_of_lt hoffset] at h
      rw [length_unitsOf] at hoffset
      split at h
      . next hd =>
        cases h
        rw [if_pos hd] at hoffset
        refine ⟨[], cs, rfl, ?_, hd⟩
        simp only [units16, List.flatMap_nil, List.length_nil]
        omega
      . cases h
    . rcases Nat.exists_eq_add_of_le (Nat.le_of_not_lt hoffset) with ⟨rest, rfl⟩
      rw [charAtUnit?_cons_add] at h
      have ⟨before, after, hcs, hlength, hc⟩ := ih h
      refine ⟨d :: before, after, ?_, ?_, hc⟩
      . rw [hcs, List.cons_append]
      . rw [← hlength, units16, units16, List.flatMap_cons, List.length_append]

theorem charAtUnit?_eq_some_iff (cs : List Char) (offset : Nat) (c : Char)
    : charAtUnit? cs offset = some c
        ↔
      ∃ before after, cs = before ++ c :: after ∧ (units16 before).length = offset
        ∧ c.toNat ≤ 0xFFFF := by
  constructor
  . exact exists_append_of_charAtUnit?
  . rintro ⟨before, after, rfl, rfl, hc⟩
    have happend := charAtUnit?_append before (c :: after) 0
    rw [Nat.add_zero] at happend
    rw [happend, charAtUnit?_cons_of_lt, if_pos hc]
    rw [length_unitsOf, if_pos hc]
    exact Nat.one_pos

theorem filterMap_charAtUnit?_first (c : Char) (cs : List Char)
    : (List.range (unitsOf c).length).filterMap (charAtUnit? (c :: cs))
        =
      if c.toNat ≤ 0xFFFF then [c] else [] := by
  have hat : ∀ offset < (unitsOf c).length,
      charAtUnit? (c :: cs) offset = if c.toNat ≤ 0xFFFF then some c else none := by
    intro offset hoffset
    exact charAtUnit?_cons_of_lt hoffset cs
  rw [length_unitsOf] at hat ⊢
  by_cases hc : c.toNat ≤ 0xFFFF
  . simp only [hc, ↓reduceIte] at hat ⊢
    simp [hat 0 (by omega)]
  . simp only [hc, ↓reduceIte] at hat ⊢
    simp [List.range_succ, hat 0 (by omega), hat 1 (by omega)]

theorem filterMap_charAtUnit? (cs : List Char)
    : (List.range (units16 cs).length).filterMap (charAtUnit? cs)
        =
      cs.filter (·.toNat ≤ 0xFFFF) := by
  induction cs with
  | nil => rfl
  | cons c cs ih =>
    have hlength : (units16 (c :: cs)).length = (unitsOf c).length + (units16 cs).length := by
      rw [units16, List.flatMap_cons, List.length_append, units16]
    have hrest : charAtUnit? (c :: cs) ∘ ((unitsOf c).length + ·) = charAtUnit? cs := by
      funext offset
      apply charAtUnit?_cons_add
    rw [hlength, List.range_add, List.filterMap_append, filterMap_charAtUnit?_first,
      List.filterMap_map, hrest, ih, List.filter_cons]
    split
    . next hc => simp [hc]
    . next hc => simp [hc]

end FormLogic.Text
