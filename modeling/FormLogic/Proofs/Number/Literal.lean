import FormLogic.Proofs.Number.Numeral
import Mathlib.Data.Option.Basic

/-!
This module contains the free grammar of decimal numerals and the proof that a text is taken for a
numeral if and only if the grammar has it.
-/

namespace FormLogic.Numeral

def IsSign (cs : List Char) : Prop := cs = [] ∨ cs = ['+'] ∨ cs = ['-']

inductive IsMantissa : List Char → Prop where
  | whole {ds : List Char} (hnonempty : ds ≠ []) (hds : ∀ c ∈ ds, c.isDigit) : IsMantissa ds
  | pointed {ds fs : List Char} (hnonempty : ds ≠ []) (hds : ∀ c ∈ ds, c.isDigit)
      (hfs : ∀ c ∈ fs, c.isDigit) : IsMantissa (ds ++ '.' :: fs)
  | fraction {fs : List Char} (hnonempty : fs ≠ []) (hfs : ∀ c ∈ fs, c.isDigit)
      : IsMantissa ('.' :: fs)

inductive IsExponent : List Char → Prop where
  | absent : IsExponent []
  | written {mark : Char} {sign ds : List Char} (hmark : mark = 'e' ∨ mark = 'E')
      (hsign : IsSign sign) (hnonempty : ds ≠ []) (hds : ∀ c ∈ ds, c.isDigit)
      : IsExponent (mark :: (sign ++ ds))

inductive IsDecimal : List Char → Prop where
  | written {sign mantissa exponent : List Char} (hsign : IsSign sign)
      (hmantissa : IsMantissa mantissa) (hexponent : IsExponent exponent)
      : IsDecimal (sign ++ (mantissa ++ exponent))

theorem exists_sign_append (cs : List Char)
    : ∃ written, IsSign written ∧ cs = written ++ (sign cs).2 := by
  unfold sign IsSign
  split
  . exact ⟨['-'], by simp⟩
  . exact ⟨['+'], by simp⟩
  . exact ⟨[], by simp⟩

theorem sign_append_eq {written rest : List Char} (hwritten : IsSign written)
    (hrest : ∀ c ∈ rest.head?, c ≠ '+' ∧ c ≠ '-')
    : sign (written ++ rest) = (decide (written = ['-']), rest) := by
  rcases hwritten with rfl | rfl | rfl
  . rw [List.nil_append]
    unfold sign
    split
    . exact absurd rfl (hrest '-' rfl).2
    . exact absurd rfl (hrest '+' rfl).1
    . rfl
  . rfl
  . rfl

theorem sign_append {written rest : List Char} (hwritten : IsSign written)
    (hrest : ∀ c ∈ rest.head?, c ≠ '+' ∧ c ≠ '-') : (sign (written ++ rest)).2 = rest := by
  rw [sign_append_eq hwritten hrest]

theorem digits_eq (cs : List Char)
    : cs = (digits cs).1 ++ (digits cs).2 ∧ ∀ c ∈ (digits cs).1, c.isDigit := by
  unfold digits
  constructor
  . rw [List.takeWhile_append_dropWhile]
  . rw [← List.all_eq_true]
    apply List.all_takeWhile

theorem digits_of_forall {ds : List Char} (hds : ∀ c ∈ ds, c.isDigit) : digits ds = (ds, []) := by
  have hdigits : digits (ds ++ []) = (ds, []) := digits_append hds (by simp)
  rw [List.append_nil] at hdigits
  exact hdigits

theorem not_sign_of_isDigit {ds rest : List Char} (hnonempty : ds ≠ [])
    (hds : ∀ c ∈ ds, c.isDigit) : ∀ c ∈ (ds ++ rest).head?, c ≠ '+' ∧ c ≠ '-' := by
  cases ds with
  | nil => exact absurd rfl hnonempty
  | cons d ds =>
    intro c hc
    have hdigit := hds d List.mem_cons_self
    simp only [List.cons_append, List.head?_cons, Option.mem_some] at hc
    rw [← hc]
    constructor
    . rintro rfl
      exact absurd hdigit (by decide)
    . rintro rfl
      exact absurd hdigit (by decide)

theorem isExponent_of_exponent? {cs : List Char} {e : Option Int} (h : exponent? cs = some (e, []))
    : IsExponent cs := by
  cases cs with
  | nil => exact .absent
  | cons c cs =>
    rw [exponent?] at h
    split at h
    . next hmark =>
      have ⟨written, hsign, hcs⟩ := exists_sign_append cs
      have ⟨hdigits, hall⟩ := digits_eq (sign cs).2
      dsimp only at h
      split at h
      . cases h
      . next hnonempty =>
        simp only [Option.some.injEq, Prod.mk.injEq] at h
        rw [h.2, List.append_nil] at hdigits
        rw [hcs, hdigits]
        exact .written hmark hsign (by simpa using hnonempty) hall
    . simp at h

theorem exists_exponent?_eq {cs : List Char} (h : IsExponent cs)
    : ∃ e, exponent? cs = some (e, []) := by
  cases h with
  | absent => exact ⟨none, rfl⟩
  | @written mark sign ds hmark hsign hnonempty hds =>
    have hrest : ∀ c ∈ (ds ++ []).head?, c ≠ '+' ∧ c ≠ '-' := not_sign_of_isDigit hnonempty hds
    rw [List.append_nil] at hrest
    have hsigned := sign_append hsign hrest
    rw [exponent?, if_pos hmark]
    dsimp only
    rw [hsigned, digits_of_forall hds]
    simp [hnonempty]

theorem head?_of_isExponent {cs : List Char} (h : IsExponent cs)
    : ∀ c ∈ cs.head?, c.isDigit = false ∧ c ≠ '.' := by
  cases h with
  | absent => simp
  | written hmark =>
    intro c hc
    simp only [List.head?_cons, Option.mem_some] at hc
    rw [← hc]
    rcases hmark with rfl | rfl <;> decide

def behindPoint : List Char → List Char × List Char
  | '.' :: cs => digits cs
  | cs => ([], cs)

theorem behindPoint_of_head? {cs : List Char} (h : ∀ c ∈ cs.head?, c ≠ '.')
    : behindPoint cs = ([], cs) := by
  unfold behindPoint
  split
  . exact absurd rfl (h '.' rfl)
  . rfl

def complete? (negative : Bool) (whole fraction rest : List Char) : Option Numeral := do
  guard (!(whole.isEmpty && fraction.isEmpty))
  let (exponent, cs) ← exponent? rest
  guard cs.isEmpty
  return ⟨negative, whole, fraction, exponent⟩

theorem free?_eq (cs : List Char)
    : free? cs
        =
      complete? (sign cs).1 (digits (sign cs).2).1 (behindPoint (digits (sign cs).2).2).1
        (behindPoint (digits (sign cs).2).2).2 := by
  unfold free? behindPoint
  rcases sign cs with ⟨negative, cs⟩
  dsimp only
  rcases digits cs with ⟨whole, rest⟩
  rfl

theorem isSome_complete?_iff (negative : Bool) (whole fraction rest : List Char)
    : (complete? negative whole fraction rest).isSome
        ↔
      (whole ≠ [] ∨ fraction ≠ []) ∧ IsExponent rest := by
  have hexponent : IsExponent rest ↔ ∃ e, exponent? rest = some (e, []) := by
    constructor
    . exact exists_exponent?_eq
    . rintro ⟨e, he⟩
      exact isExponent_of_exponent? he
  rw [hexponent]
  unfold complete?
  by_cases hempty : whole = [] ∧ fraction = []
  . simp [guard, hempty]
  . rw [not_and_or] at hempty
    cases exponent? rest with
    | none => simp [guard]
    | some found =>
      rcases found with ⟨e, tail⟩
      cases tail with
      | nil => simp [guard, hempty]
      | cons c tail => simp [guard]

theorem exists_mantissa_append {cs : List Char}
    (h : (digits cs).1 ≠ [] ∨ (behindPoint (digits cs).2).1 ≠ [])
    : ∃ mantissa, IsMantissa mantissa ∧ cs = mantissa ++ (behindPoint (digits cs).2).2 := by
  have ⟨hcs, hwhole⟩ := digits_eq cs
  generalize digits cs = found at h hcs hwhole ⊢
  rcases found with ⟨ds, rest⟩
  dsimp only at h hcs hwhole ⊢
  unfold behindPoint at h ⊢
  split at h
  . next rest =>
    have ⟨hrest, hfraction⟩ := digits_eq rest
    by_cases hempty : ds = []
    . have hnonempty : (digits rest).1 ≠ [] := by simpa [hempty] using h
      refine ⟨'.' :: (digits rest).1, .fraction hnonempty hfraction, ?_⟩
      rw [List.cons_append, ← hrest, hcs, hempty]
      rfl
    . refine ⟨ds ++ '.' :: (digits rest).1, .pointed hempty hwhole hfraction, ?_⟩
      rw [List.append_assoc, List.cons_append, ← hrest]
      exact hcs
  . have hnonempty : ds ≠ [] := by simpa using h
    exact ⟨ds, .whole hnonempty hwhole, hcs⟩

theorem digits_mantissa_append {mantissa rest : List Char} (hmantissa : IsMantissa mantissa)
    (hrest : ∀ c ∈ rest.head?, c.isDigit = false ∧ c ≠ '.')
    : ((digits (mantissa ++ rest)).1 ≠ [] ∨ (behindPoint (digits (mantissa ++ rest)).2).1 ≠ [])
        ∧ (behindPoint (digits (mantissa ++ rest)).2).2 = rest := by
  have hstop : ∀ c ∈ rest.head?, c.isDigit = false := fun c hc => (hrest c hc).1
  have hpoint : ∀ c ∈ rest.head?, c ≠ '.' := fun c hc => (hrest c hc).2
  cases hmantissa with
  | whole hnonempty hds =>
    rw [digits_append hds hstop, behindPoint_of_head? hpoint]
    exact ⟨.inl hnonempty, rfl⟩
  | @pointed ds fs hnonempty hds hfs =>
    have hdigits : digits (ds ++ '.' :: (fs ++ rest)) = (ds, '.' :: (fs ++ rest)) :=
      digits_append hds (by simp)
    rw [List.append_assoc, List.cons_append, hdigits, behindPoint, digits_append hfs hstop]
    exact ⟨.inl hnonempty, rfl⟩
  | @fraction fs hnonempty hfs =>
    have hdigits : digits ([] ++ '.' :: (fs ++ rest)) = ([], '.' :: (fs ++ rest)) :=
      digits_append (by simp) (by simp)
    rw [List.nil_append] at hdigits
    rw [List.cons_append, hdigits, behindPoint, digits_append hfs hstop]
    exact ⟨.inr hnonempty, rfl⟩

theorem head?_of_isMantissa {mantissa : List Char} (h : IsMantissa mantissa) (rest : List Char)
    : ∀ c ∈ (mantissa ++ rest).head?, c ≠ '+' ∧ c ≠ '-' := by
  cases h with
  | whole hnonempty hds => exact not_sign_of_isDigit hnonempty hds
  | pointed hnonempty hds =>
    rw [List.append_assoc]
    exact not_sign_of_isDigit hnonempty hds
  | fraction => simp

theorem isSome_free?_iff (cs : List Char) : (free? cs).isSome ↔ IsDecimal cs := by
  rw [free?_eq, isSome_complete?_iff]
  constructor
  . rintro ⟨hdigits, hexponent⟩
    have ⟨signed, hsign, hcs⟩ := exists_sign_append cs
    have ⟨mantissa, hmantissa, hrest⟩ := exists_mantissa_append hdigits
    rw [hcs, hrest]
    exact .written hsign hmantissa hexponent
  . rintro ⟨hsign, hmantissa, hexponent⟩
    rw [sign_append hsign (head?_of_isMantissa hmantissa _)]
    have ⟨hdigits, hrest⟩ := digits_mantissa_append hmantissa (head?_of_isExponent hexponent)
    rw [hrest]
    exact ⟨hdigits, hexponent⟩

theorem isNumeralChar_of_isDecimal {cs : List Char} (h : IsDecimal cs)
    : ∀ c ∈ cs, isNumeralChar c := by
  have hdigits : ∀ ds : List Char, (∀ c ∈ ds, c.isDigit) → ∀ c ∈ ds, isNumeralChar c := by
    intro ds hds c hc
    exact isNumeralChar_of_isDigit (hds c hc)
  have hsigns : ∀ {cs : List Char}, IsSign cs → ∀ c ∈ cs, isNumeralChar c := by
    rintro cs (rfl | rfl | rfl) <;> simp [isNumeralChar]
  rcases h with ⟨hsign, hmantissa, hexponent⟩
  simp only [List.forall_mem_append]
  refine ⟨hsigns hsign, ?_, ?_⟩
  . cases hmantissa with
    | whole _ hds => exact hdigits _ hds
    | pointed _ hds hfs =>
      rw [List.forall_mem_append, List.forall_mem_cons]
      exact ⟨hdigits _ hds, by decide, hdigits _ hfs⟩
    | fraction _ hfs =>
      rw [List.forall_mem_cons]
      exact ⟨by decide, hdigits _ hfs⟩
  . cases hexponent with
    | absent => simp
    | written hmark hsign _ hds =>
      rw [List.forall_mem_cons, List.forall_mem_append]
      refine ⟨?_, hsigns hsign, hdigits _ hds⟩
      rcases hmark with rfl | rfl <;> decide

end FormLogic.Numeral
