import FormLogic.Coercion
import FormLogic.Proofs.Path.Parts
import FormLogic.Proofs.Text.Units16
import Mathlib.Data.List.Basic

/-!
This module contains the lengths and the characters of texts as paths lead to them. A text has as
many places as it has UTF-16 code units, but at the two halves of a surrogate pair there is nothing
to be found, so going through all places gives the text without its characters above U+FFFF.
-/

namespace FormLogic

namespace Path

variable {key : String}

theorem segments_dot (hkey : Style.plain.Allows key.toList) {name : String}
    (hname : Style.plain.Allows name.toList) : segments (key ++ "." ++ name) = [key, name] := by
  have hspell : key ++ "." ++ name = spell [⟨key, .plain, hkey⟩, ⟨name, .plain, hname⟩] := by
    rw [← String.toList_inj]
    simp [spell, Spelling.write, Spelling.writeNext, Style.write]
  rw [hspell, segments_spell_cons]
  rfl

theorem segments_length (hkey : Style.plain.Allows key.toList)
    : segments (key ++ ".length") = [key, "length"] := by
  have hname : Style.plain.Allows "length".toList := ⟨by simp, by simp⟩
  have hdot : key ++ ".length" = key ++ "." ++ "length" := by
    rw [String.append_assoc]
    rfl
  rw [hdot, segments_dot hkey hname]

theorem segments_bracket (hkey : Style.plain.Allows key.toList) (n : Nat)
    : segments (key ++ "[" ++ n.repr ++ "]") = [key, n.repr] := by
  have hspell : key ++ "[" ++ n.repr ++ "]"
      = spell [⟨key, .plain, hkey⟩, ⟨n.repr, .number, (isDigits_repr n).allows.2⟩] := by
    rw [← String.toList_inj]
    simp [spell, Spelling.write, Spelling.writeNext, Style.write]
  rw [hspell, segments_spell_cons]
  rfl

end Path

namespace Json

variable {s : String}

theorem part?_length (hfits : (Text.units16 s.toList).length < 0x10000000000000000)
    : ∃ fits, (string s).part? "length"
        = some (number (.whole (Text.units16 s.toList).length fits)) := by
  refine ⟨by omega, ?_⟩
  unfold part? Number.count
  dsimp only
  rw [if_pos rfl]
  congr 3
  omega

theorem part?_repr (hfits : (Text.units16 s.toList).length < 0x10000000000000000) (n : Nat)
    : (string s).part? n.repr
        =
      (Text.charAtUnit? s.toList n).map fun c => string (String.singleton c) := by
  unfold part?
  dsimp only
  rw [if_neg (repr_ne_length n), index?_repr_eq]
  split
  . rw [Option.bind_eq_bind, Option.bind_some]
    cases Text.charAtUnit? s.toList n with
    | none => rfl
    | some c =>
      rw [Option.map_some, String.singleton_eq_ofList]
      rfl
  . next hword =>
    -- No text is so long that a place in it is more than a machine word.
    have hnone : Text.charAtUnit? s.toList n = none := by
      unfold Text.charAtUnit?
      rw [List.getElem?_eq_none (by omega)]
    rw [hnone]
    rfl

end Json

namespace Context

theorem get?_part {members : List (String × Json)} {key segment path : String} {v : Json}
    (hmember : Json.find? members key = some v) (hpath : Path.segments path = [key, segment])
    (hliteral : (Context.mk (.object members)).literal? path = none)
    : (Context.mk (.object members)).get? path = v.part? segment := by
  rw [get?_eq_descend? hliteral (by simp [hpath]), hpath, Json.descend?, Json.part?]
  rw [hmember]
  dsimp only [Option.bind_eq_bind, Option.bind_some]
  rw [Json.descend?]
  cases v.part? segment <;> rfl

theorem get?_character {members : List (String × Json)} {key s path : String} {n : Nat}
    (hmember : Json.find? members key = some (.string s))
    (hfits : (Text.units16 s.toList).length < 0x10000000000000000)
    (hpath : Path.segments path = [key, n.repr])
    (hliteral : (Context.mk (.object members)).literal? path = none)
    : (Context.mk (.object members)).get? path
        =
      (Text.charAtUnit? s.toList n).map fun c => .string (String.singleton c) := by
  rw [get?_part hmember hpath hliteral, Json.part?_repr hfits]

theorem flatMap_get?_character {members : List (String × Json)} {key s : String}
    {paths : Nat → String} (hmember : Json.find? members key = some (.string s))
    (hfits : (Text.units16 s.toList).length < 0x10000000000000000)
    (hpaths : ∀ n, Path.segments (paths n) = [key, n.repr])
    (hliteral : ∀ n < (Text.units16 s.toList).length,
      (Context.mk (.object members)).literal? (paths n) = none)
    : ((List.range (Text.units16 s.toList).length).filterMap fun n =>
          (Context.mk (.object members)).get? (paths n)).flatMap Json.plainText
        =
      s.toList.filter (·.toNat ≤ 0xFFFF) := by
  have hfound : (List.range (Text.units16 s.toList).length).filterMap
        (fun n => (Context.mk (.object members)).get? (paths n))
      = ((List.range (Text.units16 s.toList).length).filterMap (Text.charAtUnit? s.toList)).map
        fun c => .string (String.singleton c) := by
    rw [List.map_filterMap]
    apply List.filterMap_congr
    intro n hn
    exact get?_character hmember hfits (hpaths n) (hliteral n (List.mem_range.mp hn))
  rw [hfound, Text.filterMap_charAtUnit?, List.flatMap_map]
  simp

/--
A text in memory has less than `2 ^ 63` bytes, so its units can be counted in a machine word.
-/
theorem get?_characters {members : List (String × Json)} {key s : String} (hnonempty : key ≠ "")
    (hplain : ∀ c ∈ key.toList, c ≠ '.' ∧ c ≠ '[' ∧ c ≠ ']')
    (hmember : Json.find? members key = some (.string s))
    (hfits : (Text.units16 s.toList).length < 0x10000000000000000)
    : let ctx : Context := ⟨.object members⟩
      let units := Text.units16 s.toList
      let bracketed := fun n : Nat => key ++ "[" ++ n.repr ++ "]"
      let dotted := fun n : Nat => key ++ "." ++ n.repr
      units.length = s.toList.length + s.toList.countP (fun c => 0xFFFF < c.toNat)
        ∧ (ctx.literal? (key ++ ".length") = none
            → ∃ fits, ctx.get? (key ++ ".length") = some (.number (.whole units.length fits)))
        ∧ (∀ n, ctx.literal? (bracketed n) = none → ctx.literal? (dotted n) = none
            → ctx.get? (bracketed n) = ctx.get? (dotted n)
              ∧ ((ctx.get? (bracketed n)).isSome
                  ↔
                ∃ h : n < units.length, Text.isHalf units[n] = false)
              ∧ ∀ v, ctx.get? (bracketed n) = some v
                  ↔
                ∃ before c after, s.toList = before ++ c :: after
                  ∧ (Text.units16 before).length = n ∧ c.toNat ≤ 0xFFFF
                  ∧ v = .string (String.singleton c))
        ∧ ((∀ n < units.length, ctx.literal? (bracketed n) = none)
            → ((List.range units.length).filterMap fun n => ctx.get? (bracketed n)).flatMap
                Json.plainText
              = s.toList.filter (·.toNat ≤ 0xFFFF)) := by
  intro ctx units bracketed dotted
  have hkey : Path.Style.plain.Allows key.toList := ⟨by simpa using hnonempty, hplain⟩
  have hbrackets : ∀ n, Path.segments (bracketed n) = [key, n.repr] := Path.segments_bracket hkey
  have hdot : ∀ n, Path.segments (dotted n) = [key, n.repr] := by
    intro n
    exact Path.segments_dot hkey (Path.isDigits_repr n).allows.1
  refine ⟨Text.length_units16 s.toList, ?_, ?_, flatMap_get?_character hmember hfits hbrackets⟩
  . intro hliteral
    have ⟨fits, hlength⟩ := Json.part?_length hfits
    exact ⟨fits, (get?_part hmember (Path.segments_length hkey) hliteral).trans hlength⟩
  . intro n hb hd
    have hbracketed := get?_character hmember hfits (hbrackets n) hb
    have hdotted := get?_character hmember hfits (hdot n) hd
    refine ⟨hbracketed.trans hdotted.symm, ?_, ?_⟩
    . rw [hbracketed, Option.isSome_map, Text.isSome_charAtUnit?_iff]
      simp only [List.getElem?_eq_some_iff]
      constructor
      . rintro ⟨unit, ⟨hn, rfl⟩, hhalf⟩
        exact ⟨hn, hhalf⟩
      . rintro ⟨hn, hhalf⟩
        exact ⟨_, ⟨hn, rfl⟩, hhalf⟩
    . intro v
      rw [hbracketed]
      simp only [Option.map_eq_some_iff, Text.charAtUnit?_eq_some_iff]
      constructor
      . rintro ⟨c, ⟨before, after, hs, hlength, hc⟩, rfl⟩
        exact ⟨before, c, after, hs, hlength, hc, rfl⟩
      . rintro ⟨before, c, after, hs, hlength, hc, rfl⟩
        exact ⟨c, ⟨before, after, hs, hlength, hc⟩, rfl⟩

theorem get?_characters_around_pair
    : let members : List (String × Json) := [("k", .string "a😀b"), ("k[7]", .null)]
      let ctx : Context := ⟨.object members⟩
      "k" ≠ ""
        ∧ (∀ c ∈ "k".toList, c ≠ '.' ∧ c ≠ '[' ∧ c ≠ ']')
        ∧ Json.find? members "k" = some (.string "a😀b")
        ∧ (Text.units16 "a😀b".toList).length < 0x10000000000000000
        ∧ (∃ fits, ctx.get? "k.length" = some (.number (.whole 4 fits)))
        ∧ ctx.get? "k[3]" = ctx.get? "k.3"
        ∧ ctx.get? "k[3]" = some (.string "b")
        ∧ ((List.range 4).filterMap fun n => ctx.get? ("k[" ++ n.repr ++ "]")).flatMap Json.plainText
            = ['a', 'b'] := by
  intro members ctx
  have hnonempty : "k" ≠ "" := by decide
  have hplain : ∀ c ∈ "k".toList, c ≠ '.' ∧ c ≠ '[' ∧ c ≠ ']' := by simp
  have hfits : (Text.units16 "a😀b".toList).length < 0x10000000000000000 := by decide
  have ⟨_, hlength, hcharacters, hall⟩ :=
    @get?_characters members "k" "a😀b" hnonempty hplain rfl hfits
  have hliteral : ∀ n < 4, ctx.literal? ("k[" ++ n.repr ++ "]") = none := by
    intro n hn
    have hcases : n = 0 ∨ n = 1 ∨ n = 2 ∨ n = 3 := by omega
    rcases hcases with rfl | rfl | rfl | rfl <;> rfl
  have ⟨hsame, _, hfound⟩ := hcharacters 3 rfl rfl
  refine ⟨hnonempty, hplain, rfl, hfits, hlength rfl, hsame, ?_, hall hliteral⟩
  exact (hfound _).mpr ⟨['a', '😀'], 'b', [], rfl, rfl, by decide, rfl⟩

end Context

end FormLogic
