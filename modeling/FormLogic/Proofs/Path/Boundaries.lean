import FormLogic.Evaluation
import FormLogic.Proofs.Path.Pattern

/-!
This module contains the reading of a path by positions, which are counted in bytes: where the
segments start and stop, and the look at every position between two of them. A position that is not
at the boundary of a character stops the reading. This never happens, because everything between two
segments is a dot or a bracket and takes one byte.
-/

namespace FormLogic

namespace Path

def byteSize (cs : List Char) : Nat := (String.ofList cs).utf8ByteSize

def behind? (path : String) (position : Nat) : Option (List Char) :=
  if h : String.Pos.Raw.IsValid path ⟨position⟩ then
    some (path.sliceFrom ⟨⟨position⟩, h⟩).copy.toList
  else
    none

/--
Where a segment is written, and the text that it stands for.
-/
structure Span where
  start : Nat
  stop : Nat
  written : List Char
  text : List Char
deriving DecidableEq

namespace Span

def Covers (span : Span) (position : Nat) : Prop := span.start ≤ position ∧ position < span.stop

def IsMatchIn (span : Span) (path : String) : Prop :=
  ∃ rest, behind? path span.start = some (span.written ++ rest)
    ∧ behind? path span.stop = some rest
    ∧ (Pattern.segment.rests (span.written ++ rest)).head? = some rest

end Span

def spansFrom (position : Nat) : List Piece → List Span
  | [] => []
  | p :: ps =>
    let stop := position + byteSize p.source
    match p with
    | .segment written text => ⟨position, stop, written, text⟩ :: spansFrom stop ps
    | .joint _ _ => spansFrom stop ps

@[simp]
theorem spansFrom_segment (position : Nat) (written text : List Char) (ps : List Piece)
    : spansFrom position (.segment written text :: ps)
        =
      ⟨position, position + byteSize written, written, text⟩
        :: spansFrom (position + byteSize written) ps := rfl

@[simp]
theorem spansFrom_joint (position : Nat) (c : Char) (opensEmpty : Bool) (ps : List Piece)
    : spansFrom position (.joint c opensEmpty :: ps) = spansFrom (position + byteSize [c]) ps := rfl

def spans (path : String) : List Span := spansFrom 0 (pieces 0 path.toList)

def gapsFrom (cursor stop : Nat) : List Span → List (Nat × Nat)
  | [] => [(cursor, stop)]
  | span :: spans => (cursor, span.start) :: gapsFrom span.stop stop spans

def gaps (path : String) : List (Nat × Nat) := gapsFrom 0 path.utf8ByteSize (spans path)

def emptyBetween? (path : String) (start stop : Nat) : Option (List (List Char)) := do
  let rests ← (List.range' start (stop - start)).mapM (behind? path)
  return rests.filterMap fun rest => if opensEmpty rest then some [] else none

def segmentsFrom? (path : String) (cursor : Nat) : List Span → Option (List (List Char))
  | [] => emptyBetween? path cursor path.utf8ByteSize
  | span :: spans => do
    let empty ← emptyBetween? path cursor span.start
    let rest ← segmentsFrom? path span.stop spans
    return empty ++ span.text :: rest

/--
The segments of a path as they are found by positions.
-/
def segments? (path : String) : Option (List String) := do
  let rest ← segmentsFrom? path 0 (spans path)
  let first := if path.toList.head? = some '.' then [[]] else []
  return (first ++ rest).map String.ofList

def IsSign (c : Char) : Prop := c = '.' ∨ c = '[' ∨ c = ']'

def IsJointAt (path : String) (position : Nat) : Prop :=
  ∃ c rest, behind? path position = some (c :: rest)
    ∧ IsSign c
    ∧ Pattern.segment.rests (c :: rest) = []

inductive Divides (path : String) : Nat → List Piece → Prop where
  | nil : Divides path path.utf8ByteSize []
  | segment {position : Nat} {written text rest : List Char} {ps : List Piece}
      (hnonempty : written ≠ []) (hstart : behind? path position = some (written ++ rest))
      (hstop : behind? path (position + byteSize written) = some rest)
      (hmatch : (Pattern.segment.rests (written ++ rest)).head? = some rest)
      (h : Divides path (position + byteSize written) ps)
      : Divides path position (.segment written text :: ps)
  | joint {position : Nat} {c : Char} {rest : List Char} {ps : List Piece}
      (hstart : behind? path position = some (c :: rest)) (hsign : IsSign c)
      (hnone : Pattern.segment.rests (c :: rest) = [])
      (h : Divides path (position + byteSize [c]) ps)
      : Divides path position (.joint c (opensEmpty (c :: rest)) :: ps)

theorem isSign_of_segment?_eq_none {c : Char} {cs : List Char} (h : segment? (c :: cs) = none)
    : IsSign c := by
  cases hc : isPlain c with
  | true =>
    rw [segment?_cons (isPlain_eq_true.mp hc).2.1, if_pos hc] at h
    cases h
  | false =>
    unfold isPlain at hc
    simpa [IsSign, Classical.or_iff_not_imp_left] using hc

theorem segment?_width_pos {cs text : List Char} {width : Nat}
    (h : segment? cs = some (text, width)) : 0 < width := by
  unfold segment? at h
  split at h
  . cases h
  . split at h
    . cases h
      exact Nat.succ_pos _
    . split at h
      . rcases Option.map_eq_some_iff.mp h with ⟨_, _, heq⟩
        cases heq
        exact Nat.succ_pos _
      . rcases Option.map_eq_some_iff.mp h with ⟨_, _, heq⟩
        cases heq
        exact Nat.succ_pos _
      . cases h
  . split at h
    . next hc =>
      cases h
      rw [List.takeWhile_cons, if_pos hc]
      exact Nat.succ_pos _
    . cases h

theorem byteSize_append (as bs : List Char) : byteSize (as ++ bs) = byteSize as + byteSize bs := by
  unfold byteSize
  rw [String.ofList_append, String.utf8ByteSize_append]

theorem byteSize_pos {cs : List Char} (h : cs ≠ []) : 0 < byteSize cs := by
  unfold byteSize
  rw [Nat.pos_iff_ne_zero, Ne, String.utf8ByteSize_eq_zero_iff]
  simpa using h

theorem byteSize_toList (path : String) : byteSize path.toList = path.utf8ByteSize := by
  unfold byteSize
  rw [String.ofList_toList]

theorem IsSign.byteSize_eq {c : Char} (h : IsSign c) : byteSize [c] = 1 := by
  rcases h with rfl | rfl | rfl
  . rfl
  . rfl
  . rfl

theorem behind?_of_append {path : String} {before rest : List Char}
    (h : path.toList = before ++ rest) : behind? path (byteSize before) = some rest := by
  have happend : path = String.ofList before ++ String.ofList rest := by
    rw [← String.ofList_append, ← h, String.ofList_toList]
  have hvalid : String.Pos.Raw.IsValid path ⟨byteSize before⟩ := by
    rw [String.Pos.Raw.isValid_iff_exists_append]
    exact ⟨_, _, happend, rfl⟩
  have hsplits : (⟨⟨byteSize before⟩, hvalid⟩ : path.Pos).Splits (String.ofList before)
      (String.ofList rest) := ⟨happend, rfl⟩
  unfold behind?
  rw [dif_pos hvalid, hsplits.copy_sliceFrom_eq, String.toList_ofList]

theorem isValid_of_behind? {path : String} {position : Nat} {rest : List Char}
    (h : behind? path position = some rest) : String.Pos.Raw.IsValid path ⟨position⟩ := by
  unfold behind? at h
  split at h
  . next hvalid => exact hvalid
  . cases h

theorem divides_pieces {path : String} {before cs : List Char} (hpath : path.toList = before ++ cs)
    : Divides path (byteSize before) (pieces 0 cs) := by
  -- Each piece moves characters from the rest to what is before it, so the path stays the same.
  have hstart := behind?_of_append hpath
  have htake := Pattern.takes_segment cs
  cases hsegment : segment? cs with
  | none =>
    rw [hsegment] at htake
    cases htake with
    | nothing hnone =>
      cases cs with
      | nil =>
        rw [List.append_nil] at hpath
        rw [← hpath, byteSize_toList]
        exact .nil
      | cons c cs =>
        have hnext : path.toList = before ++ [c] ++ cs := by
          rw [hpath, List.append_assoc]
          rfl
        have hdivides := divides_pieces hnext
        rw [byteSize_append] at hdivides
        rw [pieces, hsegment]
        exact .joint hstart (isSign_of_segment?_eq_none hsegment) hnone hdivides
  | some found =>
    rcases found with ⟨text, width⟩
    have hwidth := segment?_width_pos hsegment
    rw [hsegment, Option.map_some] at htake
    cases htake with
    | found written rest hcs hmatch =>
      have hnonempty : written ≠ [] := List.ne_nil_of_length_pos hwidth
      have hnext : path.toList = before ++ written ++ rest := by
        rw [hpath, hcs, List.append_assoc]
      have hstop := behind?_of_append hnext
      have hdivides := divides_pieces hnext
      rw [byteSize_append] at hstop hdivides
      rw [hcs] at hsegment hmatch hstart ⊢
      rw [pieces_append hnonempty hsegment]
      exact .segment hnonempty hstart hstop hmatch hdivides
termination_by cs.length
decreasing_by
  . simp_all
  . rw [hcs, List.length_append]
    exact Nat.lt_add_of_pos_left hwidth

theorem le_start_of_mem_spansFrom {position : Nat} {ps : List Piece} {span : Span}
    (h : span ∈ spansFrom position ps) : position ≤ span.start := by
  induction ps generalizing position with
  | nil => cases h
  | cons p ps ih =>
    cases p with
    | segment written text =>
      rw [spansFrom_segment, List.mem_cons] at h
      cases h with
      | inl h => exact Nat.le_of_eq (congrArg Span.start h).symm
      | inr h =>
        have := ih h
        omega
    | joint c =>
      rw [spansFrom_joint] at h
      have := ih h
      omega

theorem pairwise_spansFrom (position : Nat) (ps : List Piece)
    : (spansFrom position ps).Pairwise fun a b => a.stop ≤ b.start := by
  induction ps generalizing position with
  | nil => exact .nil
  | cons p ps ih =>
    cases p with
    | segment written text =>
      apply List.Pairwise.cons
      . intro span hspan
        exact le_start_of_mem_spansFrom hspan
      . exact ih _
    | joint c => exact ih _

theorem emptyBetween?_succ {path : String} {start stop : Nat} {empty : List (List Char)}
    {rest : List Char} (hle : start ≤ stop) (hempty : emptyBetween? path start stop = some empty)
    (hrest : behind? path stop = some rest)
    : emptyBetween? path start (stop + 1)
        =
      some (empty ++ if opensEmpty rest then [[]] else []) := by
  have hpositions : List.range' start (stop + 1 - start)
      = List.range' start (stop - start) ++ [stop] := by
    rw [Nat.sub_add_comm hle, List.range'_1_concat, Nat.add_sub_cancel' hle]
  unfold emptyBetween? at hempty ⊢
  simp only [bind, pure, Option.bind_eq_some_iff] at hempty
  rcases hempty with ⟨rests, hrests, heq⟩
  cases heq
  have hnext : (List.range' start (stop + 1 - start)).mapM (behind? path)
      = some (rests ++ [rest]) := by
    rw [hpositions, List.mapM_append, hrests, List.mapM_cons, List.mapM_nil, hrest]
    rfl
  simp only [hnext, bind, pure, Option.bind_some, List.filterMap_append]
  cases hopens : opensEmpty rest with
  | true => rw [List.filterMap_cons, if_pos hopens, List.filterMap_nil, if_pos rfl]
  | false =>
    rw [List.filterMap_cons, hopens, List.filterMap_nil]
    rfl

section

variable {path : String} {position : Nat} {ps : List Piece}

theorem Divides.isMatchIn (h : Divides path position ps)
    : ∀ span ∈ spansFrom position ps, span.start < span.stop ∧ span.IsMatchIn path := by
  induction h with
  | nil =>
    intro span hspan
    cases hspan
  | segment hnonempty hstart hstop hmatch _ ih =>
    rw [spansFrom_segment, List.forall_mem_cons]
    refine ⟨⟨?_, _, hstart, hstop, hmatch⟩, ih⟩
    exact Nat.lt_add_of_pos_right (byteSize_pos hnonempty)
  | joint _ _ _ _ ih => exact ih

theorem Divides.isJointAt (h : Divides path position ps) {i : Nat} (hle : position ≤ i)
    (hlt : i < path.utf8ByteSize) (hspans : ∀ span ∈ spansFrom position ps, ¬span.Covers i)
    : IsJointAt path i := by
  induction h with
  | nil => exact absurd hlt (Nat.not_lt_of_le hle)
  | segment hnonempty hstart hstop hmatch _ ih =>
    rw [spansFrom_segment, List.forall_mem_cons] at hspans
    rcases hspans with ⟨hspan, hspans⟩
    apply ih _ hspans
    rw [Span.Covers, not_and, Nat.not_lt] at hspan
    exact hspan hle
  | joint hstart hsign hnone _ ih =>
    cases Nat.eq_or_lt_of_le hle with
    | inl heq =>
      rw [← heq]
      exact ⟨_, _, hstart, hsign, hnone⟩
    | inr hlt =>
      apply ih _ hspans
      rw [hsign.byteSize_eq]
      exact hlt

theorem Divides.isValid (h : Divides path position ps) {cursor : Nat}
    (hcursor : ∀ i, cursor ≤ i → i < position → String.Pos.Raw.IsValid path ⟨i⟩)
    : ∀ gap ∈ gapsFrom cursor path.utf8ByteSize (spansFrom position ps),
        ∀ i, gap.1 ≤ i → i < gap.2 → String.Pos.Raw.IsValid path ⟨i⟩ := by
  -- Between the cursor and the position are signs, and their gap can go on behind the position.
  induction h generalizing cursor with
  | nil =>
    rw [spansFrom, gapsFrom, List.forall_mem_singleton]
    exact hcursor
  | segment hnonempty hstart hstop hmatch _ ih =>
    rw [spansFrom_segment, gapsFrom, List.forall_mem_cons]
    refine ⟨hcursor, ih ?_⟩
    intro i hle hlt
    exact absurd hlt (Nat.not_lt_of_le hle)
  | joint hstart hsign hnone _ ih =>
    apply ih
    intro i hle hlt
    rw [hsign.byteSize_eq] at hlt
    cases Nat.eq_or_lt_of_le (Nat.le_of_lt_succ hlt) with
    | inl heq =>
      rw [heq]
      exact isValid_of_behind? hstart
    | inr hlt => exact hcursor i hle hlt

theorem Divides.segmentsFrom?_eq (h : Divides path position ps) {cursor : Nat}
    {empty : List (List Char)} (hle : cursor ≤ position)
    (hempty : emptyBetween? path cursor position = some empty)
    : segmentsFrom? path cursor (spansFrom position ps)
        =
      some (empty ++ ps.filterMap Piece.segment?) := by
  -- The empty segments between the cursor and the position have been found.
  induction h generalizing cursor empty with
  | nil =>
    rw [spansFrom, segmentsFrom?, hempty]
    simp
  | @segment position written text rest ps hnonempty hstart hstop hmatch _ ih =>
    have hnone : emptyBetween? path (position + byteSize written) (position + byteSize written)
        = some [] := by
      simp [emptyBetween?]
    rw [spansFrom_segment, segmentsFrom?, hempty, ih (Nat.le_refl _) hnone]
    simp [Piece.segment?]
  | @joint position c rest ps hstart hsign hnone _ ih =>
    have hnext := emptyBetween?_succ hle hempty hstart
    rw [← hsign.byteSize_eq] at hnext
    rw [spansFrom_joint, ih (Nat.le_trans hle (Nat.le_add_right _ _)) hnext]
    rw [List.append_assoc, List.filterMap_cons, Piece.segment?]
    split
    . rfl
    . rfl

end

theorem divides_path (path : String) : Divides path 0 (pieces 0 path.toList) :=
  divides_pieces (List.nil_append _).symm

theorem segments?_eq (path : String) : segments? path = some (segments path) := by
  have hempty : emptyBetween? path 0 0 = some [] := by
    simp [emptyBetween?]
  have hsegments := (divides_path path).segmentsFrom?_eq (Nat.le_refl 0) hempty
  unfold segments? spans
  rw [hsegments]
  rfl

end Path

namespace Context

/--
The value to which a path leads that is read by positions.
-/
def getByPosition? (ctx : Context) (path : String) : Option (Option Json) :=
  match ctx.literal? path with
  | some v => some (some v)
  | none =>
    (Path.segments? path).map fun
      | [] => none
      | segments => ctx.data.descend? segments

theorem getByPosition?_eq (ctx : Context) (path : String)
    : ctx.getByPosition? path = some (ctx.get? path) := by
  unfold getByPosition? get?
  cases ctx.literal? path with
  | some v => rfl
  | none =>
    rw [Path.segments?_eq]
    rfl

end Context

def Condition.holdsByPosition? (c : Condition) (ctx : Context) : Option Bool :=
  (ctx.getByPosition? c.path).map fun actual => c.operator.relates actual c.value

namespace Path

theorem split_at_boundaries (path : String)
    : (spans path).Pairwise (fun a b => a.stop ≤ b.start)
        ∧ (∀ span ∈ spans path, span.start < span.stop ∧ span.IsMatchIn path)
        ∧ (∀ position < path.utf8ByteSize,
            (∀ span ∈ spans path, ¬span.Covers position) → IsJointAt path position)
        ∧ (∀ gap ∈ gaps path, ∀ position, gap.1 ≤ position → position < gap.2
            → String.Pos.Raw.IsValid path ⟨position⟩)
        ∧ segments? path = some (segments path)
        ∧ (∀ ctx : Context, ctx.getByPosition? path = some (ctx.get? path))
        ∧ ∀ (ctx : Context) (c : Condition), c.holdsByPosition? ctx = some (c.holds ctx) := by
  have hdivides := divides_path path
  refine ⟨pairwise_spansFrom 0 _, hdivides.isMatchIn, ?_, ?_, segments?_eq path, ?_, ?_⟩
  . intro position hlt hspans
    exact hdivides.isJointAt (Nat.zero_le position) hlt hspans
  . apply hdivides.isValid
    intro i _ hlt
    exact absurd hlt (Nat.not_lt_zero i)
  . intro ctx
    exact ctx.getByPosition?_eq path
  . intro ctx c
    unfold Condition.holdsByPosition?
    rw [ctx.getByPosition?_eq]
    rfl

theorem split_at_boundaries_unclosed_quote
    : let path := "[\"é..['ü']"
      let name : Span := ⟨1, 4, ['"', 'é'], ['"', 'é']⟩
      let quoted : Span := ⟨6, 12, ['[', '\'', 'ü', '\'', ']'], ['ü']⟩
      spans path = [name, quoted]
        ∧ gaps path = [(0, 1), (4, 6), (12, 12)]
        ∧ name.stop ≤ quoted.start
        ∧ (quoted.start < quoted.stop ∧ quoted.IsMatchIn path)
        ∧ IsJointAt path 5
        ∧ String.Pos.Raw.IsValid path ⟨5⟩
        -- Inside of a character the reading would stop.
        ∧ behind? path 3 = none
        ∧ segments? path = some ["\"é", "", "ü"] := by
  intro path name quoted
  have hspans : spans path = [name, quoted] := by decide
  have hgaps : gaps path = [(0, 1), (4, 6), (12, 12)] := by decide
  have hsegments : segments path = ["\"é", "", "ü"] := by decide
  have hbetween : ∀ span ∈ spans path, ¬span.Covers 5 := by
    simp [hspans, name, quoted, Span.Covers]
  have ⟨hordered, hmatches, hjoints, hvalid, hread, _⟩ := split_at_boundaries path
  have hjoint := hjoints 5 (by decide) hbetween
  have hslice := hvalid (4, 6) (by simp [hgaps]) 5 (by decide) (by decide)
  have hquoted := hmatches quoted (by simp [hspans])
  rw [hspans, List.pairwise_pair] at hordered
  rw [hsegments] at hread
  exact ⟨hspans, hgaps, hordered, hquoted, hjoint, hslice, by decide, hread⟩

end Path

end FormLogic
