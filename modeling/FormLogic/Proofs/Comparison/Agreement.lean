import FormLogic.Proofs.Number.Plain
import FormLogic.Proofs.Text.Units16

/-!
This module contains the proof that equal values are neither above nor below one another, with the
one exception of arrays in which different numbers compare as equal. Arrays are ordered by their
plain text, which has all digits of whole numbers, but they are equal if their items are, where
numbers are rounded.
-/

namespace FormLogic

namespace Json

mutual

/--
The numbers that are written in the plain text of a value.
-/
def numbers : Json → List Number
  | number n => [n]
  | array items => itemNumbers items
  | _ => []

def itemNumbers : List Json → List Number
  | [] => []
  | v :: vs => v.numbers ++ itemNumbers vs

end

theorem itemNumbers_cons (v : Json) (vs : List Json)
    : itemNumbers (v :: vs) = v.numbers ++ itemNumbers vs := rfl

structure Correspond (as bs : List Char) (xs ys : List Int) : Prop where
  -- More items may follow, behind a comma, and more numbers.
  values_eq : ∀ cs ds : List Char, (∀ c ∈ cs.head?, c = ',') → (∀ d ∈ ds.head?, d = ',')
    → as ++ cs = bs ++ ds → xs = ys ∧ cs = ds
  text_eq : ∀ zs ws : List Int, xs ++ zs = ys ++ ws → as = bs ∧ zs = ws

namespace Correspond

theorem fixed (as : List Char) : Correspond as as [] [] where
  values_eq := by
    intro cs ds _ _ h
    exact ⟨rfl, List.append_cancel_left h⟩
  text_eq := by
    intro zs ws h
    exact ⟨rfl, h⟩

theorem number {n m : Number} (h : n.toScalar.compare? m.toScalar = some .eq)
    : Correspond n.plainText m.plainText [n.units] [m.units] where
  values_eq := by
    intro cs ds hcs hds heq
    have ⟨hunits, hrest⟩ := Number.units_eq_of_plainText_append h hcs hds heq
    exact ⟨by rw [hunits], hrest⟩
  text_eq := by
    intro zs ws heq
    have ⟨hunits, hrest⟩ := List.cons.inj heq
    exact ⟨Number.plainText_eq_of_units_eq h hunits, hrest⟩

variable {as bs as' bs' : List Char} {xs ys xs' ys' : List Int}

theorem append (h : Correspond as bs xs ys) (h' : Correspond as' bs' xs' ys')
    : Correspond (as ++ ',' :: as') (bs ++ ',' :: bs') (xs ++ xs') (ys ++ ys') where
  values_eq := by
    intro cs ds hcs hds heq
    rw [List.append_assoc, List.append_assoc] at heq
    have ⟨hvalues, hrest⟩ := h.values_eq _ _ (by simp) (by simp) heq
    have ⟨hvalues', hrest'⟩ := h'.values_eq cs ds hcs hds (List.cons.inj hrest).2
    exact ⟨by rw [hvalues, hvalues'], hrest'⟩
  text_eq := by
    intro zs ws heq
    rw [List.append_assoc, List.append_assoc] at heq
    have ⟨htext, hrest⟩ := h.text_eq _ _ heq
    have ⟨htext', hrest'⟩ := h'.text_eq zs ws hrest
    exact ⟨by rw [htext, htext'], hrest'⟩

theorem text_eq_iff (h : Correspond as bs xs ys) : as = bs ↔ xs = ys := by
  constructor
  . intro htext
    exact (h.values_eq [] [] (by simp) (by simp) (by rw [htext])).1
  . intro hvalues
    exact (h.text_eq [] [] (by rw [hvalues])).1

end Correspond

theorem isNull_eq_of_equal {a b : Json} (h : a.equal b) : a.isNull = b.isNull := by
  cases a with
  | null =>
    cases b with
    | null => rfl
    | _ => simp [equal] at h
  | _ =>
    cases b with
    | null => simp [equal] at h
    | _ => rfl

theorem correspond_item {a b : Json} (h : a.equal b)
    (htext : Correspond a.plainText b.plainText (a.numbers.map (·.units)) (b.numbers.map (·.units)))
    : Correspond (if a.isNull then [] else a.plainText) (if b.isNull then [] else b.plainText)
        (a.numbers.map (·.units)) (b.numbers.map (·.units)) := by
  cases a with
  | null =>
    cases b with
    | null => exact .fixed []
    | _ => simp [equal] at h
  | _ =>
    rw [← isNull_eq_of_equal h]
    exact htext

mutual

theorem correspond_of_equal : ∀ {a b : Json}, a.equal b
    → Correspond a.plainText b.plainText (a.numbers.map (·.units)) (b.numbers.map (·.units))
  | null, b, h => by
    cases b with
    | null => exact .fixed _
    | _ => simp [equal] at h
  | bool x, b, h => by
    cases b with
    | bool y =>
      simp only [equal, beq_iff_eq] at h
      rw [h]
      exact .fixed _
    | _ => simp [equal] at h
  | number n, b, h => by
    cases b with
    | number m =>
      rw [equal, beq_iff_eq] at h
      exact .number h
    | _ => simp [equal] at h
  | string s, b, h => by
    cases b with
    | string t =>
      simp only [equal, beq_iff_eq] at h
      rw [h]
      exact .fixed _
    | _ => simp [equal] at h
  | array as, b, h => by
    cases b with
    | array bs =>
      rw [equal] at h
      exact correspond_of_equalItems h
    | _ => simp [equal] at h
  | object as, b, h => by
    cases b with
    | object bs => exact .fixed _
    | _ => simp [equal] at h

theorem correspond_of_equalItems : ∀ {as bs : List Json}, equalItems as bs
    → Correspond (plainItems as) (plainItems bs) ((itemNumbers as).map (·.units))
        ((itemNumbers bs).map (·.units))
  | [], bs, h => by
    cases bs with
    | nil => exact .fixed []
    | cons b bs => simp [equalItems] at h
  | [a], bs, h => by
    rcases bs with _ | ⟨b, _ | ⟨b', bs⟩⟩
    . simp [equalItems] at h
    . simp only [equalItems, Bool.and_true] at h
      simp only [plainItems_singleton, itemNumbers, List.append_nil]
      exact correspond_item h (correspond_of_equal h)
    . simp [equalItems] at h
  | a :: a' :: as, bs, h => by
    rcases bs with _ | ⟨b, _ | ⟨b', bs⟩⟩
    . simp [equalItems] at h
    . simp [equalItems] at h
    . rw [equalItems, Bool.and_eq_true] at h
      have hitem := correspond_item h.1 (correspond_of_equal h.1)
      rw [itemNumbers_cons a, itemNumbers_cons b, List.map_append, List.map_append]
      rw [plainItems_cons_cons, plainItems_cons_cons]
      apply hitem.append
      exact correspond_of_equalItems h.2

end

end Json

namespace Operator

theorem order?_eq_some_eq_iff (a b : Option Json)
    : order? a b = some .eq
        ↔
      greaterOrEqual.relates a b = true ∧ lessOrEqual.relates a b = true
        ∧ greaterThan.relates a b = false ∧ lessThan.relates a b = false := by
  unfold relates
  rcases order? a b with _ | order
  . simp
  . cases order <;> simp

theorem compare?_ofInt_self {value : Int}
    (h : -0x8000000000000000 ≤ value ∧ value < 0x10000000000000000)
    : (Scalar.ofInt value).compare? (.ofInt value) = some .eq := by
  have ⟨_, _, hrank⟩ := Scalar.exists_rank?_ofInt_eq h
  rw [Scalar.compare?_eq_some_eq_iff]
  exact ⟨_, hrank, hrank⟩

theorem order?_eq_some_eq_iff_of_text {a b : Option Json} {as bs : List Char}
    (ha : Comparand.ofValue a = .text as) (hb : Comparand.ofValue b = .text bs)
    : order? a b = some .eq ↔ as = bs := by
  unfold order?
  rw [ha, hb, Comparand.compare?, Option.some.injEq]
  apply Text.compareUnits_eq_eq_iff

theorem order?_eq_some_eq_of_equal {a b : Json} (h : a.equal b) (harray : ∀ as, a ≠ .array as)
    : order? (some a) (some b) = some .eq := by
  cases a with
  | null =>
    cases b with
    | null => exact compare?_ofInt_self (by decide)
    | _ => simp [Json.equal] at h
  | bool x =>
    cases b with
    | bool y =>
      simp only [Json.equal, beq_iff_eq] at h
      rw [h]
      apply compare?_ofInt_self
      cases y <;> decide
    | _ => simp [Json.equal] at h
  | number n =>
    cases b with
    | number m =>
      rw [Json.equal, beq_iff_eq] at h
      exact h
    | _ => simp [Json.equal] at h
  | string s =>
    cases b with
    | string t =>
      simp only [Json.equal, beq_iff_eq] at h
      rw [order?_eq_some_eq_iff_of_text rfl rfl, h]
    | _ => simp [Json.equal] at h
  | array as => exact absurd rfl (harray as)
  | object as =>
    cases b with
    | object bs =>
      rw [order?_eq_some_eq_iff_of_text rfl rfl]
      rfl
    | _ => simp [Json.equal] at h

theorem order?_arrays_eq_some_eq_iff {as bs : List Json} (h : Json.equalItems as bs)
    : order? (some (.array as)) (some (.array bs)) = some .eq
        ↔
      (Json.itemNumbers as).map (·.units) = (Json.itemNumbers bs).map (·.units) := by
  have hcorrespond := Json.correspond_of_equalItems h
  rw [← hcorrespond.text_eq_iff]
  apply order?_eq_some_eq_iff_of_text
  . rfl
  . rfl

theorem relates_of_equals_iff_items (a b : Json) (h : equals.relates (some a) (some b) = true)
    : (greaterOrEqual.relates (some a) (some b) = true ∧ lessOrEqual.relates (some a) (some b) = true
        ∧ greaterThan.relates (some a) (some b) = false
        ∧ lessThan.relates (some a) (some b) = false)
        ↔
      ∀ as bs, a = .array as → b = .array bs
        → (Json.itemNumbers as).map (·.units) = (Json.itemNumbers bs).map (·.units) := by
  have hequal : a.equal b := h
  rw [← order?_eq_some_eq_iff]
  by_cases harray : ∃ as, a = .array as
  . rcases harray with ⟨as, rfl⟩
    cases b with
    | array bs =>
      rw [Json.equal] at hequal
      rw [order?_arrays_eq_some_eq_iff hequal]
      constructor
      . intro heq as' bs' ha hb
        rw [← Json.array.inj ha, ← Json.array.inj hb]
        exact heq
      . intro heq
        apply heq
        . rfl
        . rfl
    | _ => simp [Json.equal] at hequal
  . rw [not_exists] at harray
    constructor
    . intro _ as bs ha
      exact absurd ha (harray as)
    . intro _
      exact order?_eq_some_eq_of_equal hequal harray

theorem relates_of_equals_iff_items_unlike_objects
    : let large : Json := .object [("k", .number (.whole 9007199254740993 (by decide)))]
      let rounded : Json := .object [("k", .number (.whole 9007199254740992 (by decide)))]
      let a : Json := .array [.array [.number (.real (.zero true)), .null], large]
      let b : Json := .array [.array [.number (.whole 0 (by decide)), .null], rounded]
      equals.relates (some a) (some b) = true
        ∧ greaterOrEqual.relates (some a) (some b) = true
        ∧ lessOrEqual.relates (some a) (some b) = true
        ∧ greaterThan.relates (some a) (some b) = false
        ∧ lessThan.relates (some a) (some b) = false := by
  intro large rounded a b
  have h : equals.relates (some a) (some b) = true := by decide +kernel
  refine ⟨h, (relates_of_equals_iff_items a b h).mpr ?_⟩
  intro as bs ha hb
  rw [← Json.array.inj ha, ← Json.array.inj hb]
  decide +kernel

theorem not_lessOrEqual_of_equals_rounded
    : let a : Json := .array [.number (.whole 9007199254740993 (by decide))]
      let b : Json := .array [.number (.whole 9007199254740992 (by decide))]
      equals.relates (some a) (some b) = true
        ∧ greaterThan.relates (some a) (some b) = true
        ∧ lessOrEqual.relates (some a) (some b) = false := by
  decide +kernel

end Operator

end FormLogic
