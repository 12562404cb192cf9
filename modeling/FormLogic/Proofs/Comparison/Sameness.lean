import FormLogic.Comparison

/-!
This module contains the proof that comparing does not tell the same values apart. Values are the
same if they differ at most in the sign of a zero, which is neither compared nor written in plain
text.
-/

namespace FormLogic

namespace Binary64

theorem eq_or_units_eq_zero_of_signed_eq {x y : Binary64} (h : x.signed = y.signed)
    : x = y ∨ (x.units = 0 ∧ y.units = 0) := by
  rcases x with ⟨xnegative, xunits, hx⟩
  rcases y with ⟨ynegative, yunits, hy⟩
  unfold signed at h
  cases xnegative
  all_goals
    cases ynegative
  all_goals
    simp at h
    simp
    omega

end Binary64

namespace Number

theorem same_self (n : Number) : n.same n := by
  cases n <;> simp [same]

variable {a b : Number}

theorem rank?_toScalar_eq (h : a.same b) : a.toScalar.rank? = b.toScalar.rank? := by
  cases a with
  | whole value fits =>
    cases b with
    | whole other fits =>
      simp only [same, beq_iff_eq] at h
      simp [toScalar, h]
    | real y => simp [same] at h
  | real x =>
    cases b with
    | whole other fits => simp [same] at h
    | real y =>
      simp only [same, beq_iff_eq] at h
      simp [toScalar, Scalar.rank?, h]

theorem plainText_eq (h : a.same b) : a.plainText = b.plainText := by
  cases a with
  | whole value fits =>
    cases b with
    | whole other fits =>
      simp only [same, beq_iff_eq] at h
      simp [plainText, h]
    | real y => simp [same] at h
  | real x =>
    cases b with
    | whole other fits => simp [same] at h
    | real y =>
      simp only [same, beq_iff_eq] at h
      cases Binary64.eq_or_units_eq_zero_of_signed_eq h with
      | inl heq => rw [heq]
      | inr hzero => simp [plainText, hzero.1, hzero.2]

end Number

namespace Json

mutual

theorem same_self : ∀ v : Json, v.same v
  | null => rfl
  | bool b => by simp [same]
  | number n => n.same_self
  | string s => by simp [same]
  | array items => by
    rw [same]
    exact sameItems_self items
  | object members => by
    rw [same]
    exact sameMembers_self members

theorem sameItems_self : ∀ items : List Json, sameItems items items
  | [] => rfl
  | v :: vs => by simp [sameItems, same_self v, sameItems_self vs]

theorem sameMembers_self : ∀ members : List (String × Json), sameMembers members members
  | [] => rfl
  | (k, v) :: ms => by simp [sameMembers, same_self v, sameMembers_self ms]

end

instance : ReflBEq Json where
  rfl := by
    intro v
    exact v.same_self

theorem isNull_eq_of_same {a b : Json} (h : a.same b) : a.isNull = b.isNull := by
  cases a
  all_goals
    cases b
  all_goals
    first
      | rfl
      | simp [same] at h

mutual

theorem plainText_eq_of_same : ∀ {a b : Json}, a.same b → a.plainText = b.plainText
  | null, b, h => by
    cases b with
    | null => rfl
    | _ => simp [same] at h
  | bool x, b, h => by
    cases b with
    | bool y =>
      simp only [same, beq_iff_eq] at h
      rw [h]
    | _ => simp [same] at h
  | number n, b, h => by
    cases b with
    | number m =>
      rw [same] at h
      rw [plainText_number, plainText_number, Number.plainText_eq h]
    | _ => simp [same] at h
  | string s, b, h => by
    cases b with
    | string t =>
      simp only [same, beq_iff_eq] at h
      rw [h]
    | _ => simp [same] at h
  | array as, b, h => by
    cases b with
    | array bs =>
      rw [same] at h
      rw [plainText_array, plainText_array, plainItems_eq_of_sameItems h]
    | _ => simp [same] at h
  | object as, b, h => by
    cases b with
    | object bs => rfl
    | _ => simp [same] at h

theorem plainItems_eq_of_sameItems
    : ∀ {as bs : List Json}, sameItems as bs → plainItems as = plainItems bs
  | [], bs, h => by
    cases bs with
    | nil => rfl
    | cons b bs => simp [sameItems] at h
  | [a], bs, h => by
    rcases bs with _ | ⟨b, _ | ⟨b', bs⟩⟩
    . simp [sameItems] at h
    . simp only [sameItems, Bool.and_true] at h
      simp [isNull_eq_of_same h, plainText_eq_of_same h]
    . simp [sameItems] at h
  | a :: a' :: as, bs, h => by
    rcases bs with _ | ⟨b, _ | ⟨b', bs⟩⟩
    . simp [sameItems] at h
    . simp [sameItems] at h
    . rw [sameItems, Bool.and_eq_true] at h
      simp [isNull_eq_of_same h.1, plainText_eq_of_same h.1,
        plainItems_eq_of_sameItems h.2]

end

mutual

theorem equal_eq_of_same : ∀ {a b : Json}, a.same b → ∀ c, a.equal c = b.equal c
  | null, b, h, c => by
    cases b with
    | null => rfl
    | _ => simp [same] at h
  | bool x, b, h, c => by
    cases b with
    | bool y =>
      simp only [same, beq_iff_eq] at h
      rw [h]
    | _ => simp [same] at h
  | number n, b, h, c => by
    cases b with
    | number m =>
      rw [same] at h
      cases c with
      | number k => simp [equal, Scalar.compare?, Number.rank?_toScalar_eq h]
      | _ => rfl
    | _ => simp [same] at h
  | string s, b, h, c => by
    cases b with
    | string t =>
      simp only [same, beq_iff_eq] at h
      rw [h]
    | _ => simp [same] at h
  | array as, b, h, c => by
    cases b with
    | array bs =>
      rw [same] at h
      cases c with
      | array cs =>
        rw [equal, equal]
        exact equalItems_eq_of_sameItems h cs
      | _ => rfl
    | _ => simp [same] at h
  | object as, b, h, c => by
    cases b with
    | object bs =>
      rw [same] at h
      cases c with
      | object cs =>
        have ⟨hlength, hincluded⟩ := includedMembers_eq_of_sameMembers h cs
        rw [equal, equal, hlength, hincluded]
      | _ => rfl
    | _ => simp [same] at h

theorem equalItems_eq_of_sameItems
    : ∀ {as bs : List Json}, sameItems as bs → ∀ cs, equalItems as cs = equalItems bs cs
  | [], bs, h, cs => by
    cases bs with
    | nil => rfl
    | cons b bs => simp [sameItems] at h
  | a :: as, bs, h, cs => by
    cases bs with
    | nil => simp [sameItems] at h
    | cons b bs =>
      rw [sameItems, Bool.and_eq_true] at h
      cases cs with
      | nil => rfl
      | cons c cs => simp [equalItems, equal_eq_of_same h.1 c, equalItems_eq_of_sameItems h.2 cs]

theorem includedMembers_eq_of_sameMembers
    : ∀ {as bs : List (String × Json)}, sameMembers as bs
        → ∀ cs, as.length = bs.length ∧ includedMembers as cs = includedMembers bs cs
  | [], bs, h, cs => by
    cases bs with
    | nil => exact ⟨rfl, rfl⟩
    | cons b bs => simp [sameMembers] at h
  | (k, a) :: as, bs, h, cs => by
    cases bs with
    | nil => simp [sameMembers] at h
    | cons b bs =>
      rcases b with ⟨l, b⟩
      rw [sameMembers, Bool.and_eq_true, Bool.and_eq_true, beq_iff_eq] at h
      rcases h with ⟨⟨hkey, hvalue⟩, hrest⟩
      have ⟨hlength, hincluded⟩ := includedMembers_eq_of_sameMembers hrest cs
      constructor
      . simp [hlength]
      . rw [includedMembers, includedMembers, hkey, hincluded]
        cases find? cs l with
        | none => rfl
        | some c => simp [equal_eq_of_same hvalue c]

end

theorem any_equal_eq_of_sameItems {as bs : List Json} (h : sameItems as bs) (v : Json)
    : as.any (·.equal v) = bs.any (·.equal v) := by
  induction as generalizing bs with
  | nil =>
    cases bs with
    | nil => rfl
    | cons b bs => simp [sameItems] at h
  | cons a as ih =>
    cases bs with
    | nil => simp [sameItems] at h
    | cons b bs =>
      rw [sameItems, Bool.and_eq_true] at h
      simp [equal_eq_of_same h.1 v, ih h.2]

end Json

namespace Operator

variable {a b : Json}

theorem order?_eq_of_same (h : a.same b) (expected : Option Json)
    : order? (some a) expected = order? (some b) expected := by
  cases a with
  | number n =>
    cases b with
    | number m =>
      rw [Json.same] at h
      have hrank := Number.rank?_toScalar_eq h
      unfold order?
      generalize Comparand.ofValue expected = other
      cases other
      all_goals
        simp [Comparand.ofValue, Comparand.compare?, Comparand.toScalar, Scalar.compare?, hrank]
    | _ => simp [Json.same] at h
  | array as =>
    cases b with
    | array bs =>
      have htext := Json.plainText_eq_of_same h
      have hvalue : Comparand.ofValue (some (.array as)) = Comparand.ofValue (some (.array bs)) :=
        congrArg Comparand.text htext
      unfold order?
      rw [hvalue]
    | _ => simp [Json.same] at h
  | object as =>
    cases b with
    | object bs => rfl
    | _ => simp [Json.same] at h
  | _ =>
    cases b
    all_goals
      simp_all [Json.same]

theorem contains?_eq_of_same (h : a.same b) (expected : Option Json)
    : contains? (some a) expected = contains? (some b) expected := by
  cases a with
  | array as =>
    cases b with
    | array bs =>
      rw [Json.same] at h
      cases expected with
      | none => rfl
      | some v => simp [contains?, Json.any_equal_eq_of_sameItems h v]
    | _ => simp [Json.same] at h
  | string s =>
    cases b with
    | string t =>
      simp only [Json.same, beq_iff_eq] at h
      rw [h]
    | _ => simp [Json.same] at h
  | _ =>
    cases b
    all_goals
      first
        | rfl
        | simp [Json.same] at h

theorem relates_eq_of_beq (op : Operator) {actual other : Option Json} (h : actual == other)
    (expected : Option Json) : op.relates actual expected = op.relates other expected := by
  cases actual with
  | none =>
    cases other with
    | none => rfl
    | some b => simp at h
  | some a =>
    cases other with
    | none => simp at h
    | some b =>
      have hsame : a.same b := h
      have hequal : areEqual (some a) expected = areEqual (some b) expected := by
        cases expected with
        | none => rfl
        | some v => exact Json.equal_eq_of_same hsame v
      have horder := order?_eq_of_same hsame expected
      have hcontains := contains?_eq_of_same hsame expected
      unfold relates
      rw [hequal, horder, hcontains]

end Operator

end FormLogic
