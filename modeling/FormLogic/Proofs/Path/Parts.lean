import FormLogic.Context
import FormLogic.Proofs.Number.Layout
import FormLogic.Proofs.Path.Spelling

/-!
This module contains the parts of a value and the proof that there is a path to each of them. The
steps to a part are members of objects and items of arrays, and however they are written, the path
leads to that part unless it is itself the key of a member.
-/

namespace FormLogic

namespace Path

theorem Spelling.head?_write_append (s : Spelling) (rest : List Char)
    : (s.write ++ rest).head? ≠ some '.' := by
  have ⟨c, cs, hcons, hhead⟩ := s.exists_write_eq_cons
  intro h
  rw [hcons, List.cons_append, List.head?_cons, Option.some.injEq] at h
  rw [h] at hhead
  split at hhead
  . exact absurd hhead (by decide)
  . exact absurd hhead (by decide)

theorem segments_spell_cons (s : Spelling) (path : List Spelling)
    : segments (spell (s :: path)) = s.segment :: path.map (·.segment) := by
  have hfirst := s.head?_write_append (path.flatMap (·.writeNext))
  unfold segments spell
  rw [String.toList_ofList]
  dsimp only
  rw [if_neg hfirst, pieces_write s (stops_writeNext path)]
  simp [Piece.segment?, filterMap_pieces_writeNext]

theorem IsDigits.allows {text : List Char} (h : IsDigits text)
    : Style.plain.Allows text ∧ Style.number.Allows text := by
  constructor
  . refine ⟨h.1, ?_⟩
    intro c hc
    have hdigit := h.2 c hc
    refine ⟨?_, ?_, ?_⟩
    all_goals
      intro heq
      rw [heq] at hdigit
      exact absurd hdigit (by decide)
  . exact ⟨[], text, [], by simp, .inl rfl, h, .inl rfl⟩

theorem toList_repr (n : Nat) : n.repr.toList = Nat.toDigits 10 n := by
  simp [Nat.repr]

theorem isDigits_repr (n : Nat) : IsDigits n.repr.toList := by
  rw [toList_repr]
  exact ⟨Nat.toDigits_ne_nil, Numeral.isDigit_of_mem_toDigits⟩

end Path

namespace Json

/--
A step from a value into one of its parts. The index of an item is a machine word.
-/
inductive Step where
  | key (name : String)
  | index (i : UInt64)

def Step.segment : Step → String
  | key name => name
  | index i => i.toNat.repr

inductive Leads : Json → List Step → Json → Prop where
  | here (v : Json) : Leads v [] v
  | member {members : List (String × Json)} {key : String} {v w : Json} {steps : List Step}
      (hmember : find? members key = some v) (h : Leads v steps w)
      : Leads (object members) (.key key :: steps) w
  | item {items : List Json} {i : UInt64} {v w : Json} {steps : List Step}
      (hitem : items[i.toNat]? = some v) (h : Leads v steps w)
      : Leads (array items) (.index i :: steps) w

theorem index?_repr_eq (n : Nat)
    : index? n.repr = if n < 0x10000000000000000 then some n else none := by
  have hdigits : (Nat.toDigits 10 n).all Char.isDigit := by
    rw [List.all_eq_true]
    exact Numeral.isDigit_of_mem_toDigits
  unfold index?
  rw [Path.toList_repr]
  simp [Numeral.isWholePart_toDigits, hdigits, Numeral.digitsValue_toDigits]

theorem index?_repr (i : UInt64) : index? i.toNat.repr = some i.toNat := by
  rw [index?_repr_eq, if_pos i.toNat_lt]

theorem repr_ne_length (n : Nat) : n.repr ≠ "length" := by
  intro h
  have hdigits := (Path.isDigits_repr n).2
  rw [h] at hdigits
  exact absurd (hdigits 'l' (by simp)) (by decide)

theorem part?_index (items : List Json) (i : UInt64)
    : (array items).part? (Step.index i).segment = items[i.toNat]? := by
  unfold part? Step.segment
  dsimp only
  rw [if_neg (repr_ne_length i.toNat), index?_repr]
  rfl

theorem descend?_of_leads {v w : Json} {steps : List Step} (h : v.Leads steps w)
    : v.descend? (steps.map (·.segment)) = some w := by
  induction h with
  | here v => rfl
  | member hmember _ ih =>
    rw [List.map_cons, descend?]
    unfold part? Step.segment
    dsimp only
    rw [hmember]
    exact ih
  | item hitem _ ih =>
    rw [List.map_cons, descend?, part?_index, hitem]
    exact ih

end Json

namespace Context

theorem get?_of_literal? {ctx : Context} {path : String} {v : Json}
    (h : ctx.literal? path = some v) : ctx.get? path = some v := by
  unfold get?
  rw [h]

theorem get?_eq_descend? {ctx : Context} {path : String} (h : ctx.literal? path = none)
    (hsegments : Path.segments path ≠ [])
    : ctx.get? path = ctx.data.descend? (Path.segments path) := by
  unfold get?
  rw [h]
  dsimp only
  split
  . next hnil => exact absurd hnil hsegments
  . rfl

theorem literal?_eq_none {data : Json} {path : String}
    (h : ∀ members, data = .object members → Json.find? members path = none)
    : (Context.mk data).literal? path = none := by
  cases data with
  | object members => exact h members rfl
  | _ => rfl

theorem get?_spell_of_leads {data w : Json} {steps : List Json.Step} {path : List Path.Spelling}
    (hsteps : steps ≠ []) (h : data.Leads steps w)
    (hpath : path.map (·.segment) = steps.map (·.segment))
    : (∀ members v, data = .object members → Json.find? members (Path.spell path) = some v
        → (Context.mk data).get? (Path.spell path) = some v)
        ∧
      ((∀ members, data = .object members → Json.find? members (Path.spell path) = none)
        → (Context.mk data).get? (Path.spell path) = some w) := by
  constructor
  . intro members v hdata hv
    apply get?_of_literal?
    rw [hdata]
    exact hv
  . intro hnone
    have hdescend := Json.descend?_of_leads h
    cases path with
    | nil =>
      rw [List.map_nil, eq_comm, List.map_eq_nil_iff] at hpath
      exact absurd hpath hsteps
    | cons s path =>
      have hsegments : Path.segments (Path.spell (s :: path)) = steps.map (·.segment) := by
        rw [Path.segments_spell_cons, ← hpath]
        rfl
      rw [get?_eq_descend? (literal?_eq_none hnone), hsegments]
      . exact hdescend
      . simp [hsegments, hsteps]

theorem get?_spell_of_leads_through_item
    : let data : Json := .object [("[", .null),
        ("a.\"]", .array [.null, .object [("", .bool true), ("0", .string "w")]])]
      let steps : List Json.Step := [.key "a.\"]", .index 1, .key "0"]
      let path : List Path.Spelling := [⟨"a.\"]", .doubleQuoted, trivial⟩,
        ⟨(1).repr, .plain, (Path.isDigits_repr 1).allows.1⟩, ⟨"0", .singleQuoted, trivial⟩]
      steps ≠ []
        ∧ data.Leads steps (.string "w")
        ∧ path.map (·.segment) = steps.map (·.segment)
        ∧ Path.spell path = "[\"a.\\\"]\"].1['0']"
        ∧ (Context.mk data).get? (Path.spell path) = some (.string "w") := by
  intro data steps path
  have hsteps : steps ≠ [] := by decide
  have h : data.Leads steps (.string "w") := .member rfl (.item rfl (.member rfl (.here _)))
  have hpath : path.map (·.segment) = steps.map (·.segment) := by rfl
  have hnone : ∀ members, data = .object members → Json.find? members (Path.spell path) = none := by
    intro members hdata
    rw [← Json.object.inj hdata]
    decide
  exact ⟨hsteps, h, hpath, rfl, (get?_spell_of_leads hsteps h hpath).2 hnone⟩

end Context

end FormLogic
