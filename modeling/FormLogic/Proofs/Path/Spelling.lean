import FormLogic.Path

/-!
This module contains the ways to write a segment in a path: as a plain name, as a number in brackets
and as a quoted name in brackets. Whichever of them is chosen for each segment, reading the path
gives the segments back.
-/

namespace FormLogic.Path

inductive Style where
  | plain
  | number
  | doubleQuoted
  | singleQuoted
deriving DecidableEq

def IsDigits (cs : List Char) : Prop := cs ≠ [] ∧ ∀ c ∈ cs, c.isDigit

def IsNumber (cs : List Char) : Prop :=
  ∃ minus whole fraction, cs = minus ++ whole ++ fraction
    ∧ (minus = [] ∨ minus = ['-'])
    ∧ IsDigits whole
    ∧ (fraction = [] ∨ ∃ ds, IsDigits ds ∧ fraction = '.' :: ds)

def escape (quote : Char) (text : List Char) : List Char :=
  text.flatMap fun c => if c = '\\' ∨ c = quote then ['\\', c] else [c]

namespace Style

def Allows : Style → List Char → Prop
  | plain, text => text ≠ [] ∧ ∀ c ∈ text, c ≠ '.' ∧ c ≠ '[' ∧ c ≠ ']'
  | number, text => IsNumber text
  | doubleQuoted, _ => True
  | singleQuoted, _ => True

def write : Style → List Char → List Char
  | plain, text => text
  | number, text => '[' :: (text ++ [']'])
  | doubleQuoted, text => '[' :: '"' :: (escape '"' text ++ ['"', ']'])
  | singleQuoted, text => '[' :: '\'' :: (escape '\'' text ++ ['\'', ']'])

end Style

structure Spelling where
  segment : String
  style : Style
  allowed : style.Allows segment.toList

namespace Spelling

def write (s : Spelling) : List Char := s.style.write s.segment.toList

def writeNext (s : Spelling) : List Char :=
  -- Only a plain name needs something to tell it from the segment in front of it.
  if s.style = .plain then '.' :: s.write else s.write

end Spelling

def spell : List Spelling → String
  | [] => ""
  | s :: path => String.ofList (s.write ++ path.flatMap (·.writeNext))

theorem isDigit_of_isDigit {c : Char} (h : c.isDigit) : Text.isDigit c := by
  unfold Text.isDigit Text.zeros
  -- The first zero of the list is the one of ASCII.
  rw [List.any_cons, Bool.or_eq_true]
  left
  simpa using Char.isDigit_iff_toNat.mp h

theorem takeWhile_isDigit {cs : List Char} (h : IsDigits cs) {c : Char}
    (hc : Text.isDigit c = false) (rest : List Char)
    : (cs ++ c :: rest).takeWhile Text.isDigit = cs
        ∧
      (cs ++ c :: rest).dropWhile Text.isDigit = c :: rest := by
  have hdigits : ∀ d ∈ cs, Text.isDigit d := by
    intro d hd
    exact isDigit_of_isDigit (h.2 d hd)
  rw [List.takeWhile_append_of_pos hdigits, List.dropWhile_append_of_pos hdigits]
  simp [hc]

theorem take_minus {minus whole : List Char} (hminus : minus = [] ∨ minus = ['-'])
    (hwhole : IsDigits whole) (rest : List Char)
    : (minus ++ (whole ++ rest)).take
          (if (minus ++ (whole ++ rest)).head? = some '-' then 1 else 0)
        =
      minus := by
  cases hminus with
  | inl hminus =>
    cases whole with
    | nil => exact absurd rfl hwhole.1
    | cons d ds =>
      have hd : d ≠ '-' := by
        intro heq
        have := hwhole.2 d List.mem_cons_self
        rw [heq] at this
        exact absurd this (by decide)
      simp [hminus, hd]
  | inr hminus => simp [hminus]

theorem number?_append {cs : List Char} (h : IsNumber cs) (rest : List Char)
    : number? (cs ++ ']' :: rest) = some cs := by
  rcases h with ⟨minus, whole, fraction, rfl, hminus, hwhole, hfraction⟩
  have hnonempty : whole.isEmpty = false := by
    rw [List.isEmpty_eq_false_iff]
    exact hwhole.1
  rw [List.append_assoc, List.append_assoc]
  unfold number?
  rw [take_minus hminus hwhole]
  dsimp only
  rw [List.drop_left]
  cases hfraction with
  | inl hfraction =>
    have ⟨htake, hdrop⟩ := takeWhile_isDigit hwhole (c := ']') (by decide) rest
    rw [hfraction, List.nil_append, htake, hdrop]
    simp [hnonempty]
  | inr hfraction =>
    rcases hfraction with ⟨ds, hds, rfl⟩
    have ⟨htake, hdrop⟩ := takeWhile_isDigit hwhole (c := '.') (by decide) (ds ++ ']' :: rest)
    have ⟨htake', hdrop'⟩ := takeWhile_isDigit hds (c := ']') (by decide) rest
    rw [List.cons_append, htake, hdrop]
    cases ds with
    | nil => exact absurd rfl hds.1
    | cons d ds =>
      simp only [hnonempty, Bool.false_eq_true, ↓reduceIte]
      rw [htake', hdrop']
      simp

theorem number?_quote {quote : Char} (hquote : quote = '"' ∨ quote = '\'') (rest : List Char)
    : number? (quote :: rest) = none := by
  rcases hquote with rfl | rfl
  . have : Text.isDigit '"' = false := by decide
    simp [number?, this]
  . have : Text.isDigit '\'' = false := by decide
    simp [number?, this]

theorem quoted?_cons {quote c : Char} (hc : c ≠ '\\') (cs : List Char)
    : quoted? quote (c :: cs)
        =
      if c = quote then
        if cs.head? = some ']' then some ([], 2) else none
      else
        (quoted? quote cs).map fun (text, width) => (c :: text, width + 1) := by
  rw [quoted?]
  . simp [hc]
  . intro d ds h
    exact absurd h hc

theorem quoted?_escape {quote : Char} (hquote : quote = '"' ∨ quote = '\'')
    (text rest : List Char)
    : quoted? quote (escape quote text ++ quote :: ']' :: rest)
        =
      some (text, (escape quote text).length + 2) := by
  have hbackslash : quote ≠ '\\' := by
    rcases hquote with rfl | rfl <;> decide
  -- A backslash cannot stand for a line feed, but a line feed is never escaped.
  have hnewline : quote ≠ '\n' := by
    rcases hquote with rfl | rfl <;> decide
  unfold escape
  induction text with
  | nil =>
    rw [List.flatMap_nil, List.nil_append, quoted?_cons hbackslash]
    simp
  | cons c text ih =>
    rw [List.flatMap_cons, List.append_assoc]
    split
    . next hescaped =>
      have hc : c ≠ '\n' := by
        rcases hescaped with rfl | rfl
        . decide
        . exact hnewline
      simp [quoted?, hc, ih]
    . next hplain =>
      rw [not_or] at hplain
      rw [List.singleton_append, quoted?_cons hplain.1, ih]
      simp [hplain.2]

def Stops (rest : List Char) : Prop := ∀ c ∈ rest.head?, isPlain c = false

theorem isPlain_eq_true {c : Char} : isPlain c = true ↔ c ≠ '.' ∧ c ≠ '[' ∧ c ≠ ']' := by
  simp [isPlain, and_assoc]

theorem segment?_cons {c : Char} (hc : c ≠ '[') (cs : List Char)
    : segment? (c :: cs)
        =
      if isPlain c then
        some ((c :: cs).takeWhile isPlain, ((c :: cs).takeWhile isPlain).length)
      else
        none := by
  rw [segment?]
  intro h
  exact absurd h hc

theorem segment?_plain {text : List Char} (h : Style.plain.Allows text) {rest : List Char}
    (hrest : Stops rest) : segment? (text ++ rest) = some (text, text.length) := by
  rcases h with ⟨hnonempty, hplain⟩
  have hall : ∀ c ∈ text, isPlain c := by
    intro c hc
    rw [isPlain_eq_true]
    exact hplain c hc
  have htake : (text ++ rest).takeWhile isPlain = text := by
    rw [List.takeWhile_append_of_pos hall]
    cases rest with
    | nil => simp
    | cons c rest => simp [hrest c rfl]
  cases text with
  | nil => exact absurd rfl hnonempty
  | cons c text =>
    have hbracket : c ≠ '[' := (hplain c List.mem_cons_self).2.1
    rw [List.cons_append] at htake ⊢
    rw [segment?_cons hbracket, htake, if_pos (hall c List.mem_cons_self)]

theorem segment?_number {number cs : List Char} (h : number? cs = some number)
    : segment? ('[' :: cs) = some (number, number.length + 2) := by
  simp [segment?, h]

theorem segment?_write (s : Spelling) {rest : List Char} (hrest : Stops rest)
    : segment? (s.write ++ rest) = some (s.segment.toList, s.write.length) := by
  rcases s with ⟨segment, style, hallowed⟩
  unfold Spelling.write Style.write
  cases style with
  | plain => exact segment?_plain hallowed hrest
  | number =>
    simp only [List.cons_append, List.append_assoc, List.nil_append]
    rw [segment?_number (number?_append hallowed rest)]
    simp
  | doubleQuoted =>
    simp only [List.cons_append, List.append_assoc, List.nil_append]
    rw [segment?, number?_quote (.inl rfl)]
    dsimp
    rw [quoted?_escape (.inl rfl)]
    simp
  | singleQuoted =>
    simp only [List.cons_append, List.append_assoc, List.nil_append]
    rw [segment?, number?_quote (.inr rfl)]
    dsimp
    rw [quoted?_escape (.inr rfl)]
    simp

theorem pieces_drop (skip : Nat) (cs : List Char) : pieces skip cs = pieces 0 (cs.drop skip) := by
  induction cs generalizing skip with
  | nil => simp [pieces]
  | cons c cs ih =>
    cases skip with
    | zero => rfl
    | succ skip =>
      rw [pieces, ih]
      rfl

theorem pieces_append {written text rest : List Char} (hnonempty : written ≠ [])
    (h : segment? (written ++ rest) = some (text, written.length))
    : pieces 0 (written ++ rest) = .segment written text :: pieces 0 rest := by
  cases written with
  | nil => exact absurd rfl hnonempty
  | cons c written =>
    rw [List.cons_append] at h ⊢
    rw [pieces]
    rw [h]
    dsimp
    rw [pieces_drop]
    simp

theorem Spelling.exists_write_eq_cons (s : Spelling)
    : ∃ c cs, s.write = c :: cs ∧ if s.style = .plain then isPlain c = true else c = '[' := by
  rcases s with ⟨segment, style, hallowed⟩
  unfold write Style.write
  cases style with
  | plain =>
    rcases hallowed with ⟨hnonempty, hplain⟩
    rcases List.exists_cons_of_ne_nil hnonempty with ⟨c, cs, hcons⟩
    rw [hcons] at hplain
    refine ⟨c, cs, hcons, ?_⟩
    rw [if_pos rfl, isPlain_eq_true]
    exact hplain c List.mem_cons_self
  | number => exact ⟨_, _, rfl, rfl⟩
  | doubleQuoted => exact ⟨_, _, rfl, rfl⟩
  | singleQuoted => exact ⟨_, _, rfl, rfl⟩

theorem stops_writeNext (path : List Spelling) : Stops (path.flatMap (·.writeNext)) := by
  cases path with
  | nil => simp [Stops]
  | cons s path =>
    have ⟨c, cs, hcons, hhead⟩ := s.exists_write_eq_cons
    rw [List.flatMap_cons, Spelling.writeNext]
    split
    . simp [Stops, isPlain]
    . next hstyle =>
      rw [if_neg hstyle] at hhead
      simp [Stops, isPlain, hcons, hhead]

theorem opensEmpty_dot {c : Char} (hc : isPlain c = true) (cs : List Char)
    : opensEmpty ('.' :: c :: cs) = false := by
  have ⟨hdot, hbracket, _⟩ := isPlain_eq_true.mp hc
  have hafter : afterJoint? ('.' :: c :: cs) = some (c :: cs) := by rfl
  have hjoint : afterJoint? (c :: cs) = none := by
    unfold afterJoint?
    split
    . simp_all
    . simp_all
    . rfl
  simp [opensEmpty, hafter, hjoint]

theorem pieces_write (s : Spelling) {rest : List Char} (hrest : Stops rest)
    : pieces 0 (s.write ++ rest) = .segment s.write s.segment.toList :: pieces 0 rest := by
  have ⟨c, cs, hcons, _⟩ := s.exists_write_eq_cons
  apply pieces_append
  . simp [hcons]
  . exact segment?_write s hrest

theorem filterMap_pieces_writeNext (path : List Spelling)
    : (pieces 0 (path.flatMap (·.writeNext))).filterMap Piece.segment?
        =
      path.map (·.segment.toList) := by
  induction path with
  | nil => rfl
  | cons s path ih =>
    have hstops := stops_writeNext path
    rw [List.flatMap_cons, Spelling.writeNext]
    split
    . next hstyle =>
      -- The dot has a name behind it, so it opens no empty segment.
      have ⟨c, cs, hcons, hhead⟩ := s.exists_write_eq_cons
      rw [if_pos hstyle] at hhead
      have hdot : pieces 0 ('.' :: s.write ++ path.flatMap (·.writeNext))
          = .joint '.' (opensEmpty ('.' :: s.write ++ path.flatMap (·.writeNext)))
            :: pieces 0 (s.write ++ path.flatMap (·.writeNext)) := by rfl
      rw [hdot, pieces_write s hstops, hcons]
      simp [Piece.segment?, opensEmpty_dot hhead, ih]
    . rw [pieces_write s hstops]
      simp [Piece.segment?, ih]

theorem segments_spell (path : List Spelling) : segments (spell path) = path.map (·.segment) := by
  cases path with
  | nil => rfl
  | cons s path =>
    have ⟨c, cs, hcons, hhead⟩ := s.exists_write_eq_cons
    -- A dot at the front would have an empty segment before it.
    have hfirst : (s.write ++ path.flatMap (·.writeNext)).head? ≠ some '.' := by
      intro h
      rw [hcons] at h
      simp only [List.cons_append, List.head?_cons, Option.some.injEq] at h
      rw [h] at hhead
      split at hhead
      . exact absurd hhead (by decide)
      . exact absurd hhead (by decide)
    unfold segments spell
    rw [String.toList_ofList]
    dsimp
    rw [if_neg hfirst, pieces_write s (stops_writeNext path)]
    simp [Piece.segment?, filterMap_pieces_writeNext]

end FormLogic.Path
