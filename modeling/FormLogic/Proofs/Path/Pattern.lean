import FormLogic.Proofs.Path.Spelling

/-!
This module contains regular expressions, among them the one for the segments of a path. A text can
begin with several matches, which come in an order of preference. The segment at the front of a path
is the preferred one, and where there is no segment, there is no match.
-/

namespace FormLogic.Path

inductive Pattern where
  | empty
  | char (p : Char → Bool)
  | seq (first second : Pattern)
  | or (first second : Pattern)
  | many (item : Pattern)

namespace Pattern

/--
What is left behind each match at the front of a text, the preferred match first. The first of two
patterns is preferred to the second, and one more item to none.
-/
def rests : Pattern → List Char → List (List Char)
  | empty, cs => [cs]
  | char _, [] => []
  | char p, c :: cs => if p c then [cs] else []
  | seq first second, cs => (first.rests cs).flatMap second.rests
  | or first second, cs => first.rests cs ++ second.rests cs
  | many item, cs =>
    -- An item that takes no character is not repeated.
    ((item.rests cs).flatMap fun rest =>
      if rest.length < cs.length then (many item).rests rest else []) ++ [cs]
termination_by p cs => (sizeOf p, cs.length)

def just (c : Char) : Pattern := char (· == c)

def optional (p : Pattern) : Pattern := or p empty

def several (p : Pattern) : Pattern := seq p (many p)

def digits : Pattern := several (char Text.isDigit)

def unsigned : Pattern := seq digits (optional (seq (just '.') digits))

def index : Pattern := seq (optional (just '-')) unsigned

def quotedChar (quote : Char) : Pattern :=
  or (char fun c => c != quote && c != '\\') (seq (just '\\') (char (· != '\n')))

def quoted (quote : Char) : Pattern :=
  seq (just quote) (seq (many (quotedChar quote)) (just quote))

def bracketed : Pattern := seq (or index (or (quoted '"') (quoted '\''))) (just ']')

/--
The pattern of segments: a plain name, or a number or a quoted name in brackets.
-/
def segment : Pattern := or (several (char isPlain)) (seq (just '[') bracketed)

inductive Takes (p : Pattern) (cs : List Char) : Option Nat → Prop where
  | found (written rest : List Char) (hcs : cs = written ++ rest)
      (h : (p.rests cs).head? = some rest) : Takes p cs (some written.length)
  | nothing (h : p.rests cs = []) : Takes p cs none

namespace Takes

variable {p q r : Pattern} {cs : List Char} {width width' : Option Nat}

theorem behind (h : Takes p cs width) (front : List Char)
    (hfront : q.rests (front ++ cs) = p.rests cs)
    : Takes q (front ++ cs) (width.map (· + front.length)) := by
  cases h with
  | nothing h =>
    rw [← hfront] at h
    exact .nothing h
  | found written rest hcs h =>
    rw [← hfront] at h
    have htake : Takes q (front ++ cs) (some (front ++ written).length) := by
      apply Takes.found (front ++ written) rest _ h
      rw [hcs, List.append_assoc]
    simpa [Nat.add_comm] using htake

theorem orElse (hrests : r.rests cs = p.rests cs ++ q.rests cs) (h : Takes p cs width)
    (h' : Takes q cs width') : Takes r cs (width.or width') := by
  cases h with
  | nothing h =>
    rw [h, List.nil_append] at hrests
    cases h' with
    | nothing h' =>
      rw [h'] at hrests
      exact .nothing hrests
    | found written rest hcs h' =>
      rw [← hrests] at h'
      exact .found written rest hcs h'
  | found written rest hcs h =>
    apply Takes.found written rest hcs
    rw [hrests, List.head?_append, h, Option.some_or]

theorem closed {written rest : List Char} (hcs : cs = written ++ ']' :: rest)
    (h : p.rests cs = [rest]) : Takes p cs ((some written).map (·.length + 1)) := by
  have htake : Takes p cs (some (written ++ [']']).length) := by
    apply Takes.found (written ++ [']']) rest
    . rw [hcs, List.append_assoc]
      rfl
    . rw [h]
      rfl
  simpa using htake

end Takes

theorem rests_just (c d : Char) (cs : List Char)
    : (just c).rests (d :: cs) = if d = c then [cs] else [] := by
  simp [just, rests]

theorem rests_just_of_ne {c : Char} {cs : List Char} (h : ∀ rest, cs ≠ c :: rest)
    : (just c).rests cs = [] := by
  cases cs with
  | nil => simp [just, rests]
  | cons d cs =>
    rw [rests_just, if_neg]
    intro heq
    exact h cs (by rw [heq])

theorem rests_seq_assoc (first second third : Pattern) (cs : List Char)
    : (seq (seq first second) third).rests cs = (seq first (seq second third)).rests cs := by
  have hnext : (seq second third).rests = fun rest => (second.rests rest).flatMap third.rests := by
    funext rest
    rw [rests]
  rw [rests, rests, rests, List.flatMap_assoc, hnext]

theorem rests_seq_or (first second next : Pattern) (cs : List Char)
    : (seq (or first second) next).rests cs
        =
      (seq first next).rests cs ++ (seq second next).rests cs := by
  rw [rests, rests, rests, rests, List.flatMap_append]

theorem rests_seq_optional (p next : Pattern) (cs : List Char)
    : (seq (optional p) next).rests cs = (seq p next).rests cs ++ next.rests cs := by
  have hempty : (seq empty next).rests cs = next.rests cs := by
    simp [rests]
  unfold optional
  rw [rests_seq_or, hempty]

theorem rests_seq_just (c d : Char) (next : Pattern) (cs : List Char)
    : (seq (just c) next).rests (d :: cs) = if d = c then next.rests cs else [] := by
  rw [rests, rests_just]
  split
  . rw [List.flatMap_singleton]
  . rw [List.flatMap_nil]

theorem rests_seq_just_nil (c : Char) (next : Pattern) : (seq (just c) next).rests [] = [] := by
  simp [just, rests]

theorem rests_seq_many (item next : Pattern) (cs : List Char)
    : (seq (many item) next).rests cs
        =
      ((item.rests cs).flatMap fun rest =>
        if rest.length < cs.length then (seq (many item) next).rests rest else [])
          ++ next.rests cs := by
  rw [rests, rests, List.flatMap_append, List.flatMap_singleton, List.flatMap_assoc]
  congr 2
  funext rest
  split
  . rw [rests]
  . rfl

theorem rests_many_char_cons (p : Char → Bool) (c : Char) (cs : List Char)
    : (many (char p)).rests (c :: cs)
        =
      if p c then (many (char p)).rests cs ++ [c :: cs] else [c :: cs] := by
  rw [rests, rests]
  split
  . simp
  . rfl

theorem head?_rests_many_char (p : Char → Bool) (cs : List Char)
    : ((many (char p)).rests cs).head? = some (cs.dropWhile p) := by
  induction cs with
  | nil => simp [rests]
  | cons c cs ih =>
    rw [rests_many_char_cons, List.dropWhile_cons]
    split
    . rw [List.head?_append, ih, Option.some_or]
    . rfl

theorem rests_several_char_cons (p : Char → Bool) (c : Char) (cs : List Char)
    : (several (char p)).rests (c :: cs) = if p c then (many (char p)).rests cs else [] := by
  unfold several
  rw [rests, rests]
  split
  . rw [List.flatMap_singleton]
  . rw [List.flatMap_nil]

theorem ne_of_isDigit {c d : Char} (hc : Text.isDigit c) (hd : Text.isDigit d = false) : c ≠ d := by
  intro heq
  rw [heq, hd] at hc
  cases hc

theorem rests_seq_digits {next : Pattern}
    (hnext : ∀ c cs, Text.isDigit c → next.rests (c :: cs) = []) (cs : List Char)
    : (seq digits next).rests cs
        =
      if cs.takeWhile Text.isDigit = [] then [] else next.rests (cs.dropWhile Text.isDigit) := by
  -- Digits could be given back, but what follows them cannot begin with one.
  have hmany : ∀ cs, ((many (char Text.isDigit)).rests cs).flatMap next.rests
      = next.rests (cs.dropWhile Text.isDigit) := by
    intro cs
    induction cs with
    | nil => simp [rests]
    | cons c cs ih =>
      rw [rests_many_char_cons, List.dropWhile_cons]
      split
      . next hc =>
        rw [List.flatMap_append, ih, List.flatMap_singleton, hnext c cs hc, List.append_nil]
      . rw [List.flatMap_singleton]
  unfold digits
  rw [rests]
  cases cs with
  | nil => simp [several, rests]
  | cons c cs =>
    rw [rests_several_char_cons, List.takeWhile_cons, List.dropWhile_cons]
    split
    . rw [hmany, if_neg (List.cons_ne_nil _ _)]
    . rfl

def fractionClosed : Pattern := seq (optional (seq (just '.') digits)) (just ']')

theorem rests_fractionClosed_cons (c : Char) (cs : List Char)
    : fractionClosed.rests (c :: cs)
        =
      if c = '.' then
        if cs.takeWhile Text.isDigit = [] then
          []
        else
          (just ']').rests (cs.dropWhile Text.isDigit)
      else if c = ']' then
        [cs]
      else
        [] := by
  have hclose : ∀ c cs, Text.isDigit c → (just ']').rests (c :: cs) = [] := by
    intro c cs hc
    rw [rests_just, if_neg (ne_of_isDigit hc (by decide))]
  unfold fractionClosed
  rw [rests_seq_optional, rests_seq_assoc, rests_seq_just, rests_seq_digits hclose, rests_just]
  split
  . next hc =>
    have hbracket : c ≠ ']' := by simp [hc]
    rw [if_neg hbracket, List.append_nil]
  . rw [List.nil_append]

theorem rests_fractionClosed_of_ne {cs : List Char} (hdot : ∀ rest, cs ≠ '.' :: rest)
    (hbracket : ∀ rest, cs ≠ ']' :: rest) : fractionClosed.rests cs = [] := by
  unfold fractionClosed
  rw [rests_seq_optional, rests_seq_assoc, rests, rests_just_of_ne hdot, rests_just_of_ne hbracket]
  rfl

theorem rests_unsigned (cs : List Char)
    : (seq unsigned (just ']')).rests cs
        =
      if cs.takeWhile Text.isDigit = [] then
        []
      else
        fractionClosed.rests (cs.dropWhile Text.isDigit) := by
  have hfraction : ∀ c cs, Text.isDigit c → fractionClosed.rests (c :: cs) = [] := by
    intro c cs hc
    rw [rests_fractionClosed_cons, if_neg (ne_of_isDigit hc (by decide)),
      if_neg (ne_of_isDigit hc (by decide))]
  unfold unsigned
  rw [rests_seq_assoc]
  exact rests_seq_digits hfraction cs

theorem rests_index (cs : List Char)
    : (seq index (just ']')).rests cs
        =
      (seq unsigned (just ']')).rests
        (cs.drop (cs.take (if cs.head? = some '-' then 1 else 0)).length) := by
  unfold index
  rw [rests_seq_assoc, rests_seq_optional]
  -- There is no choice about the sign, because no number without a sign begins with one.
  cases cs with
  | nil => simp [rests_seq_just_nil]
  | cons c cs =>
    rw [rests_seq_just]
    split
    . next hc =>
      have hsign : (seq unsigned (just ']')).rests (c :: cs) = [] := by
        have hdigit : Text.isDigit '-' = false := by decide
        rw [rests_unsigned, hc, List.takeWhile_cons, hdigit]
        rfl
      rw [hsign, List.append_nil]
      simp [hc]
    . next hc => simp [hc]

theorem takes_number (cs : List Char)
    : Takes (seq index (just ']')) cs ((number? cs).map (·.length + 1)) := by
  have hrests := rests_index cs
  have hsign := List.prefix_iff_eq_append.mp
    (List.take_prefix (if cs.head? = some '-' then 1 else 0) cs)
  unfold number?
  dsimp only
  generalize cs.take (if cs.head? = some '-' then 1 else 0) = minus at hrests hsign ⊢
  generalize cs.drop minus.length = digits at hrests hsign ⊢
  have hdigits := List.takeWhile_append_dropWhile (p := Text.isDigit) (l := digits)
  rw [rests_unsigned] at hrests
  generalize digits.takeWhile Text.isDigit = whole at hrests hdigits ⊢
  split
  . next hempty =>
    rw [if_pos (List.isEmpty_iff.mp hempty)] at hrests
    exact .nothing hrests
  . next hnonempty =>
    rw [if_neg (mt List.isEmpty_iff.mpr hnonempty)] at hrests
    -- What stands behind the whole part: a bracket, a point or anything else.
    split
    . next rest hrest =>
      rw [hrest] at hrests hdigits
      rw [rests_fractionClosed_cons] at hrests
      apply Takes.closed _ hrests
      rw [← hsign, ← hdigits, List.append_assoc]
    . next rest hrest =>
      rw [hrest] at hrests hdigits
      rw [rests_fractionClosed_cons, if_pos rfl] at hrests
      have hfraction := List.takeWhile_append_dropWhile (p := Text.isDigit) (l := rest)
      generalize rest.takeWhile Text.isDigit = fraction at hrests hfraction ⊢
      split
      . rw [if_pos rfl] at hrests
        exact .nothing hrests
      . next rest' hnonempty hrest' =>
        rw [if_neg hnonempty, hrest', rests_just, if_pos rfl] at hrests
        rw [hrest'] at hfraction
        apply Takes.closed _ hrests
        simp [← hsign, ← hdigits, ← hfraction]
      . next hnonempty hbracket =>
        rw [if_neg hnonempty, rests_just_of_ne hbracket] at hrests
        exact .nothing hrests
    . next hbracket hdot =>
      rw [rests_fractionClosed_of_ne hdot hbracket] at hrests
      exact .nothing hrests

theorem rests_quotedChar_cons {quote c : Char} (hc : c ≠ '\\') (cs : List Char)
    : (quotedChar quote).rests (c :: cs) = if c = quote then [] else [cs] := by
  unfold quotedChar
  rw [rests, rests, rests_seq_just, if_neg hc, List.append_nil]
  simp [hc]

theorem rests_quotedChar_backslash (quote : Char) (cs : List Char)
    : (quotedChar quote).rests ('\\' :: cs) = (char (· != '\n')).rests cs := by
  unfold quotedChar
  rw [rests, rests, rests_seq_just]
  simp

def quotedClosed (quote : Char) : Pattern :=
  seq (many (quotedChar quote)) (seq (just quote) (just ']'))

theorem rests_quotedClosed_of_rests {quote c : Char} {cs rest : List Char} (hc : c ≠ quote)
    (hrests : (quotedChar quote).rests (c :: cs) = [rest]) (hlength : rest.length ≤ cs.length)
    : (quotedClosed quote).rests (c :: cs) = (quotedClosed quote).rests rest := by
  have hlt : rest.length < (c :: cs).length := Nat.lt_succ_of_le hlength
  unfold quotedClosed
  rw [rests_seq_many, rests_seq_just, if_neg hc, hrests, List.flatMap_singleton, if_pos hlt,
    List.append_nil]

theorem rests_quotedClosed_of_nil {quote c : Char} {cs : List Char}
    (hrests : (quotedChar quote).rests (c :: cs) = [])
    : (quotedClosed quote).rests (c :: cs) = if c = quote then (just ']').rests cs else [] := by
  unfold quotedClosed
  rw [rests_seq_many, rests_seq_just, hrests]
  rfl

theorem rests_quotedClosed_quote {quote : Char} (hquote : quote ≠ '\\') (cs : List Char)
    : (quotedClosed quote).rests (quote :: cs) = (just ']').rests cs := by
  rw [rests_quotedClosed_of_nil, if_pos rfl]
  rw [rests_quotedChar_cons hquote, if_pos rfl]

theorem takes_quotedClosed {quote : Char} (hquote : quote ≠ '\\') (cs : List Char)
    : Takes (quotedClosed quote) cs ((quoted? quote cs).map (·.2)) := by
  induction cs using quoted?.induct quote with
  | case1 =>
    apply Takes.nothing
    unfold quotedClosed quotedChar
    rw [rests_seq_many, rests_seq_just_nil]
    simp [just, rests]
  | case2 cs =>
    apply Takes.nothing
    rw [rests_quotedClosed_of_nil, if_neg hquote.symm]
    simp [rests_quotedChar_backslash, rests]
  | case3 c cs hc ih =>
    have hrests : (quotedClosed quote).rests (['\\', c] ++ cs) = (quotedClosed quote).rests cs := by
      apply rests_quotedClosed_of_rests hquote.symm
      . simp [rests_quotedChar_backslash, rests, hc]
      . simp
    have htake := ih.behind ['\\', c] hrests
    simpa [quoted?, hc, Function.comp_def] using htake
  | case4 cs hhead hcs =>
    rcases List.head?_eq_some_iff.mp hhead with ⟨rest, rfl⟩
    have htake : Takes (quotedClosed quote) (quote :: ']' :: rest) (some [quote, ']'].length) := by
      apply Takes.found [quote, ']'] rest rfl
      rw [List.cons_append, rests_quotedClosed_quote hquote]
      simp [rests_just]
    simpa [quoted?_cons hquote] using htake
  | case5 cs hhead hcs =>
    have hnone : (just ']').rests cs = [] := by
      apply rests_just_of_ne
      intro rest hrest
      rw [hrest] at hhead
      exact hhead rfl
    rw [quoted?_cons hquote, if_pos rfl, if_neg hhead]
    apply Takes.nothing
    rw [rests_quotedClosed_quote hquote, hnone]
  | case6 cs hcs hne =>
    -- The backslash is the last character of the text.
    cases cs with
    | cons c cs => exact (hcs c cs rfl rfl).elim
    | nil =>
      have hnone : quoted? quote ['\\'] = none := by
        simp [quoted?, hne]
      rw [hnone]
      apply Takes.nothing
      rw [rests_quotedClosed_of_nil, if_neg hne]
      simp [rests_quotedChar_backslash, rests]
  | case7 c cs hcs hne hc ih =>
    have hrests : (quotedClosed quote).rests ([c] ++ cs) = (quotedClosed quote).rests cs := by
      rw [List.singleton_append]
      apply rests_quotedClosed_of_rests hne
      . rw [rests_quotedChar_cons hc, if_neg hne]
      . exact Nat.le_refl _
    have htake := ih.behind [c] hrests
    simpa [quoted?_cons hc, hne, Function.comp_def] using htake

theorem takes_quoted {quote : Char} (hquote : quote ≠ '\\') (c : Char) (cs : List Char)
    : Takes (seq (quoted quote) (just ']')) (c :: cs)
        (if c = quote then (quoted? quote cs).map (·.2 + 1) else none) := by
  have hrests : (seq (quoted quote) (just ']')).rests (c :: cs)
      = if c = quote then (quotedClosed quote).rests cs else [] := by
    unfold quoted quotedClosed
    rw [rests_seq_assoc, rests_seq_just, rests_seq_assoc]
  split
  . next hc =>
    rw [if_pos hc] at hrests
    have htake := (takes_quotedClosed hquote cs).behind [c] hrests
    simpa [Function.comp_def] using htake
  . next hc =>
    rw [if_neg hc] at hrests
    exact .nothing hrests

theorem takes_bracketed (cs : List Char)
    : Takes bracketed cs
        (((number? cs).map (·.length + 1)).or
          (match cs with
            | '"' :: cs => (quoted? '"' cs).map (·.2 + 1)
            | '\'' :: cs => (quoted? '\'' cs).map (·.2 + 1)
            | _ => none)) := by
  apply Takes.orElse (rests_seq_or ..) (takes_number cs)
  cases cs with
  | nil =>
    apply Takes.nothing
    simp [quoted, just, rests]
  | cons c cs =>
    have hdouble : '"' ≠ '\\' := by decide
    have hsingle : '\'' ≠ '\\' := by decide
    have htake := Takes.orElse (rests_seq_or ..) (takes_quoted hdouble c cs)
      (takes_quoted hsingle c cs)
    split
    . next heq =>
      cases heq
      simpa using htake
    . next heq =>
      cases heq
      simpa using htake
    . next hdouble hsingle =>
      have hne : c ≠ '"' ∧ c ≠ '\'' := by
        constructor
        . rintro rfl
          exact hdouble cs rfl
        . rintro rfl
          exact hsingle cs rfl
      simpa [hne] using htake

theorem segment?_bracket (cs : List Char)
    : (segment? ('[' :: cs)).map (·.2)
        =
      (((number? cs).map (·.length + 1)).or
        (match cs with
          | '"' :: cs => (quoted? '"' cs).map (·.2 + 1)
          | '\'' :: cs => (quoted? '\'' cs).map (·.2 + 1)
          | _ => none)).map (· + 1) := by
  cases hnumber : number? cs with
  | some number =>
    rw [segment?_number hnumber]
    rfl
  | none =>
    simp only [segment?, hnumber, Option.map_none, Option.none_or]
    split
    . simp [Function.comp_def]
    . simp [Function.comp_def]
    . simp

theorem takes_segment (cs : List Char) : Takes segment cs ((segment? cs).map (·.2)) := by
  cases cs with
  | nil =>
    apply Takes.nothing
    simp [segment, several, just, rests]
  | cons c cs =>
    have hrests : segment.rests (c :: cs)
        = (if isPlain c then (many (char isPlain)).rests cs else [])
          ++ if c = '[' then bracketed.rests cs else [] := by
      unfold segment
      rw [rests, rests_several_char_cons, rests_seq_just]
    by_cases hbracket : c = '['
    . subst hbracket
      rw [segment?_bracket]
      exact (takes_bracketed cs).behind ['['] hrests
    . rw [if_neg hbracket, List.append_nil] at hrests
      rw [segment?_cons hbracket]
      split
      . next hc =>
        have hcut := List.takeWhile_append_dropWhile (p := isPlain) (l := c :: cs)
        rw [List.dropWhile_cons_of_pos hc] at hcut
        rw [if_pos hc] at hrests
        apply Takes.found _ _ hcut.symm
        rw [hrests, head?_rests_many_char]
      . next hc =>
        rw [if_neg hc] at hrests
        exact .nothing hrests

end Pattern

end FormLogic.Path
