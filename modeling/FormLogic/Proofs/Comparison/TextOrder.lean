import FormLogic.Proofs.Comparison.Agreement
import Mathlib.Logic.ExistsUnique

/-!
This module contains the proof that texts are ordered totally, and what this order is in terms of
their characters: a text comes before its extensions, and any other two texts are ordered by the
first characters in which they differ. The order of characters is the one by code point, except that
those that take two units come before those that stand behind the surrogates.
-/

namespace FormLogic

namespace Text

/--
One of the characters takes two units, and the other one stands behind the surrogates in one unit.
-/
def AreReversed (x y : Char) : Prop :=
  (0xFFFF < x.toNat ∧ 0xE000 ≤ y.toNat ∧ y.toNat ≤ 0xFFFF)
    ∨
  (0xFFFF < y.toNat ∧ 0xE000 ≤ x.toNat ∧ x.toNat ≤ 0xFFFF)

instance (x y : Char) : Decidable (AreReversed x y) := inferInstanceAs (Decidable (_ ∨ _))

def Precedes (x y : Char) : Prop :=
  if AreReversed x y then y.toNat < x.toNat else x.toNat < y.toNat

theorem precedes_iff (x y : Char)
    : Precedes x y
        ↔
      (AreReversed x y ∧ y.toNat < x.toNat) ∨ (¬AreReversed x y ∧ x.toNat < y.toNat) := by
  unfold Precedes
  split
  . next h => simp [h]
  . next h => simp [h]

theorem compare_append_left (units as bs : List Nat)
    : compare (units ++ as) (units ++ bs) = compare as bs := by
  induction units with
  | nil => rfl
  | cons unit units ih =>
    rw [List.cons_append, List.cons_append, List.compare_cons_cons, ih, Std.compare_self]
    rfl

theorem compare_unitsOf_append {x y : Char} (h : x ≠ y) (as bs : List Nat)
    : compare (unitsOf x ++ as) (unitsOf y ++ bs) = .lt ↔ Precedes x y := by
  have hx := toNat_not_half x
  have hy := toNat_not_half y
  have hne : x.toNat ≠ y.toNat := by
    rw [ne_eq, Char.toNat_inj]
    exact h
  rw [precedes_iff]
  unfold unitsOf AreReversed
  split
  . split
    . simp only [List.cons_append, List.compare_cons_cons, Ordering.then_eq_lt, Nat.compare_eq_lt,
        Nat.compare_eq_eq, hne, false_and, or_false]
      omega
    . -- No character is the first half of the pair of `y`, so that half settles the order.
      have hhalf : x.toNat ≠ 0xD800 + (y.toNat - 0x10000) / 0x400 := by omega
      simp only [List.cons_append, List.compare_cons_cons, Ordering.then_eq_lt, Nat.compare_eq_lt,
        Nat.compare_eq_eq, hhalf, false_and, or_false]
      omega
  . split
    . have hhalf : 0xD800 + (x.toNat - 0x10000) / 0x400 ≠ y.toNat := by omega
      simp only [List.cons_append, List.compare_cons_cons, Ordering.then_eq_lt, Nat.compare_eq_lt,
        Nat.compare_eq_eq, hhalf, false_and, or_false]
      omega
    . -- The two pairs differ in one of their halves, so what follows them plays no part.
      have hhalves : ¬(0xD800 + (x.toNat - 0x10000) / 0x400 = 0xD800 + (y.toNat - 0x10000) / 0x400
          ∧ 0xDC00 + (x.toNat - 0x10000) % 0x400 = 0xDC00 + (y.toNat - 0x10000) % 0x400) := by
        omega
      simp only [List.cons_append, List.nil_append, List.compare_cons_cons, Ordering.then_eq_lt,
        Nat.compare_eq_lt, Nat.compare_eq_eq, and_or_left, ← and_assoc, hhalves, false_and,
        or_false]
      omega

theorem units16_append (as bs : List Char) : units16 (as ++ bs) = units16 as ++ units16 bs := by
  apply List.flatMap_append

theorem compareUnits_append_left (common as bs : List Char)
    : compareUnits (common ++ as) (common ++ bs) = compareUnits as bs := by
  unfold compareUnits
  rw [units16_append, units16_append]
  apply compare_append_left

theorem compareUnits_of_ne {x y : Char} (h : x ≠ y) (as bs : List Char)
    : compareUnits (x :: as) (y :: bs) = .lt ↔ Precedes x y := by
  apply compare_unitsOf_append h

theorem compareUnits_nil_cons (c : Char) (cs : List Char) : compareUnits [] (c :: cs) = .lt := by
  have hnonempty := unitsOf_append_ne_nil c (units16 cs)
  rw [List.ne_nil_iff_exists_cons] at hnonempty
  rcases hnonempty with ⟨unit, units, hunits⟩
  have hcons : units16 (c :: cs) = unit :: units := hunits
  unfold compareUnits
  rw [hcons]
  apply List.compare_nil_cons

theorem compareUnits_trans {as bs cs : List Char} (hab : compareUnits as bs = .lt)
    (hbc : compareUnits bs cs = .lt) : compareUnits as cs = .lt := by
  unfold compareUnits at hab hbc ⊢
  exact Std.TransCmp.lt_trans hab hbc

end Text

namespace Operator

def ofOrdering : Ordering → Operator
  | .lt => lessThan
  | .eq => equals
  | .gt => greaterThan

theorem relates_strings_iff (op : Operator) (a b : String)
    : op ∈ [lessThan, equals, greaterThan]
        ∧ op.relates (some (.string a)) (some (.string b)) = true
        ↔
      op = ofOrdering (Text.compareUnits a.toList b.toList) := by
  have horder : order? (some (.string a)) (some (.string b))
      = some (Text.compareUnits a.toList b.toList) := by rfl
  have hequal : (Json.string a).equal (.string b) = true
      ↔ Text.compareUnits a.toList b.toList = .eq := by
    rw [Text.compareUnits_eq_eq_iff, String.toList_inj]
    simp [Json.equal]
  cases op with
  | equals =>
    rw [relates, areEqual, hequal]
    cases Text.compareUnits a.toList b.toList <;> simp [ofOrdering]
  | lessThan =>
    rw [relates, horder]
    cases Text.compareUnits a.toList b.toList <;> simp [ofOrdering]
  | greaterThan =>
    rw [relates, horder]
    cases Text.compareUnits a.toList b.toList <;> simp [ofOrdering]
  | _ => cases Text.compareUnits a.toList b.toList <;> simp [ofOrdering]

theorem lessThan_strings_iff (a b : String)
    : lessThan.relates (some (.string a)) (some (.string b)) = true
        ↔
      Text.compareUnits a.toList b.toList = .lt := by
  have hiff := relates_strings_iff lessThan a b
  rw [and_iff_right (by decide)] at hiff
  rw [hiff]
  cases Text.compareUnits a.toList b.toList <;> simp [ofOrdering]

theorem strings_ordered_by_first_difference
    : (∀ a b : String,
        ∃! op, op ∈ [lessThan, equals, greaterThan]
          ∧ op.relates (some (.string a)) (some (.string b)) = true)
        ∧ (∀ a b c : String,
          lessThan.relates (some (.string a)) (some (.string b)) = true
            → lessThan.relates (some (.string b)) (some (.string c)) = true
            → lessThan.relates (some (.string a)) (some (.string c)) = true)
        ∧ (∀ a b : String, a.toList <+: b.toList → a ≠ b
          → lessThan.relates (some (.string a)) (some (.string b)) = true)
        ∧ ∀ (a b : String) (common as bs : List Char) (x y : Char),
          a.toList = common ++ x :: as → b.toList = common ++ y :: bs → x ≠ y
            → (lessThan.relates (some (.string a)) (some (.string b)) = true
                ↔
              Text.Precedes x y) := by
  simp only [lessThan_strings_iff]
  refine ⟨?_, ?_, ?_, ?_⟩
  . intro a b
    simp only [relates_strings_iff]
    exact existsUnique_eq
  . intro a b c
    exact Text.compareUnits_trans
  . intro a b hbeginning hne
    rcases hbeginning with ⟨rest, hrest⟩
    rw [← hrest]
    cases rest with
    | nil =>
      rw [List.append_nil, String.toList_inj] at hrest
      exact absurd hrest hne
    | cons c rest =>
      have happend := Text.compareUnits_append_left a.toList [] (c :: rest)
      rw [List.append_nil] at happend
      rw [happend]
      apply Text.compareUnits_nil_cons
  . intro a b common as bs x y ha hb hne
    rw [ha, hb, Text.compareUnits_append_left]
    apply Text.compareUnits_of_ne hne

theorem strings_ordered_by_first_difference_reversed
    : let a := "ab"
      let b := "ab😀"
      let c := "ab～z"
      a.toList <+: b.toList
        ∧ a ≠ b
        ∧ lessThan.relates (some (.string a)) (some (.string b)) = true
        ∧ b.toList = ['a', 'b'] ++ '😀' :: []
        ∧ c.toList = ['a', 'b'] ++ '～' :: ['z']
        ∧ '😀' ≠ '～'
        ∧ lessThan.relates (some (.string b)) (some (.string c)) = true
        ∧ lessThan.relates (some (.string a)) (some (.string c)) = true := by
  intro a b c
  have ⟨_, htrans, hextension, hdifference⟩ := strings_ordered_by_first_difference
  have hbeginning : a.toList <+: b.toList := by decide
  have hne : a ≠ b := by decide
  have hb : b.toList = ['a', 'b'] ++ '😀' :: [] := by decide
  have hc : c.toList = ['a', 'b'] ++ '～' :: ['z'] := by decide
  have hcharacters : '😀' ≠ '～' := by decide
  have hprecedes : Text.Precedes '😀' '～' := by
    rw [Text.precedes_iff]
    decide
  have hab := hextension a b hbeginning hne
  have hbc := (hdifference b c _ _ _ _ _ hb hc hcharacters).mpr hprecedes
  exact ⟨hbeginning, hne, hab, hb, hc, hcharacters, hbc, htrans a b c hab hbc⟩

end Operator

end FormLogic
