import FormLogic.Proofs.Path.Spelling

/-!
This module contains paths without brackets. Their segments are the parts between the dots, where
every empty part counts: one in front of the first dot, one between two dots and one behind the last
dot.
-/

namespace FormLogic.Path

def dotted (parts : List (List Char)) : List Char := parts.flatMap ('.' :: ·)

theorem intercalate_cons_eq (part : List Char) (parts : List (List Char))
    : ['.'].intercalate (part :: parts) = part ++ dotted parts := by
  unfold dotted
  induction parts generalizing part with
  | nil => simp
  | cons next parts ih =>
    rw [List.intercalate_cons_cons, ih, List.flatMap_cons]
    simp

theorem isPlain_of_mem_splitOn {cs : List Char} (h : ∀ c ∈ cs, c ≠ '[' ∧ c ≠ ']')
    : ∀ part ∈ cs.splitOn '.', ∀ c ∈ part, isPlain c := by
  induction cs with
  | nil => simp
  | cons c cs ih =>
    rw [List.forall_mem_cons] at h
    specialize ih h.2
    rw [List.splitOn_cons_eq_if_modifyHead]
    split
    . intro part hpart
      rw [List.mem_cons] at hpart
      cases hpart with
      | inl hpart => simp [hpart]
      | inr hpart => exact ih part hpart
    . next hdot =>
      have hc : isPlain c := by
        rw [isPlain_eq_true]
        exact ⟨by simpa using hdot, h.1⟩
      rcases List.exists_cons_of_ne_nil (List.splitOn_ne_nil '.' cs) with ⟨first, parts, hparts⟩
      rw [hparts, List.forall_mem_cons] at ih
      rw [hparts, List.modifyHead_cons, List.forall_mem_cons, List.forall_mem_cons]
      exact ⟨⟨hc, ih.1⟩, ih.2⟩

theorem length_splitOn (cs : List Char) : (cs.splitOn '.').length = cs.count '.' + 1 := by
  induction cs with
  | nil => simp
  | cons c cs ih =>
    rw [List.splitOn_cons_eq_if_modifyHead, List.count_cons]
    split
    . rw [List.length_cons, ih]
    . rw [List.length_modifyHead, ih]

theorem stops_dotted (parts : List (List Char)) : Stops (dotted parts) := by
  cases parts with
  | nil => simp [Stops, dotted]
  | cons part parts => simp [Stops, dotted, isPlain]

theorem opensEmpty_dotted (parts : List (List Char)) : opensEmpty ('.' :: dotted parts) = true := by
  cases parts with
  | nil => rfl
  | cons part parts => rfl

theorem pieces_part {part : List Char} (hnonempty : part ≠ []) (hplain : ∀ c ∈ part, isPlain c)
    (parts : List (List Char))
    : pieces 0 (part ++ dotted parts) = .segment part part :: pieces 0 (dotted parts) := by
  apply pieces_append hnonempty
  apply segment?_plain
  . refine ⟨hnonempty, ?_⟩
    intro c hc
    rw [← isPlain_eq_true]
    exact hplain c hc
  . apply stops_dotted

theorem filterMap_pieces_dotted {parts : List (List Char)}
    (h : ∀ part ∈ parts, ∀ c ∈ part, isPlain c)
    : (pieces 0 (dotted parts)).filterMap Piece.segment? = parts := by
  induction parts with
  | nil => rfl
  | cons part parts ih =>
    rw [List.forall_mem_cons] at h
    specialize ih h.2
    have hdot : pieces 0 (dotted (part :: parts))
        = .joint '.' (opensEmpty ('.' :: (part ++ dotted parts))) :: pieces 0 (part ++ dotted parts)
        := by rfl
    rw [hdot]
    -- An empty part comes from its dot, and any other part from its own characters.
    cases part with
    | nil => simp [Piece.segment?, opensEmpty_dotted, ih]
    | cons c part =>
      have hc : isPlain c := h.1 c List.mem_cons_self
      rw [pieces_part (by simp) h.1]
      simp [Piece.segment?, opensEmpty_dot hc, ih]

theorem segments_dotted {part : List Char} {parts : List (List Char)}
    (hpart : ∀ c ∈ part, isPlain c) (hparts : ∀ part ∈ parts, ∀ c ∈ part, isPlain c)
    (hnonempty : part ++ dotted parts ≠ [])
    : segments (String.ofList (part ++ dotted parts)) = (part :: parts).map String.ofList := by
  have hrest := filterMap_pieces_dotted hparts
  unfold segments
  rw [String.toList_ofList]
  dsimp only
  cases part with
  | nil =>
    -- There is a first dot, and the part in front of it is empty.
    have hhead : (dotted parts).head? = some '.' := by
      cases parts with
      | nil => exact absurd rfl hnonempty
      | cons part parts => rfl
    simp [hhead, hrest]
  | cons c part =>
    have hc := (isPlain_eq_true.mp (hpart c List.mem_cons_self)).1
    rw [pieces_part (by simp) hpart]
    simp [Piece.segment?, hc, hrest]

theorem segments_eq_splitOn {path : String} (hnonempty : path ≠ "")
    (hbrackets : ∀ c ∈ path.toList, c ≠ '[' ∧ c ≠ ']')
    : segments path = (path.toList.splitOn '.').map String.ofList
        ∧ (segments path).length = path.toList.count '.' + 1
        ∧ ".".intercalate (segments path) = path := by
  have hjoined : ['.'].intercalate (path.toList.splitOn '.') = path.toList :=
    List.intercalate_splitOn '.'
  have hsegments : segments path = (path.toList.splitOn '.').map String.ofList := by
    have hplain := isPlain_of_mem_splitOn hbrackets
    rcases List.exists_cons_of_ne_nil (List.splitOn_ne_nil '.' path.toList)
      with ⟨part, parts, hparts⟩
    rw [hparts, intercalate_cons_eq] at hjoined
    rw [hparts, List.forall_mem_cons] at hplain
    have hdotted := segments_dotted hplain.1 hplain.2 (by simpa [hjoined] using hnonempty)
    rw [hjoined, String.ofList_toList] at hdotted
    rw [hparts, hdotted]
  refine ⟨hsegments, ?_, ?_⟩
  . rw [hsegments, List.length_map, length_splitOn]
  . have hparts : ((path.toList.splitOn '.').map String.ofList).map String.toList
        = path.toList.splitOn '.' := by simp
    rw [hsegments, ← String.toList_inj, String.toList_intercalate, hparts]
    exact hjoined

theorem segments_eq_splitOn_empty_parts
    : let path := "..é. '\".."
      path ≠ ""
        ∧ (∀ c ∈ path.toList, c ≠ '[' ∧ c ≠ ']')
        ∧ segments path = ["", "", "é", " '\"", "", ""]
        ∧ (segments path).length = path.toList.count '.' + 1
        ∧ ".".intercalate (segments path) = path := by
  intro path
  have hnonempty : path ≠ "" := by decide
  have hbrackets : ∀ c ∈ path.toList, c ≠ '[' ∧ c ≠ ']' := by
    simp [path]
  have ⟨hsegments, hlength, hjoined⟩ := segments_eq_splitOn hnonempty hbrackets
  have hparts : path.toList.splitOn '.' = [[], [], ['é'], [' ', '\'', '"'], [], []] := by decide
  rw [hparts] at hsegments
  exact ⟨hnonempty, hbrackets, hsegments, hlength, hjoined⟩

end FormLogic.Path
