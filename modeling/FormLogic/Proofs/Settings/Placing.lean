import FormLogic.Settings.Setting

/-!
This module contains what is found in a table after a value was placed in it. A single value is
found as it was given. A table or a list that is found there can hold parts of what was there
before.
-/

namespace FormLogic.Setting

deriving instance DecidableEq for Step

@[simp] theorem members_table (ms : List (String × Setting)) : (table ms).members = ms := rfl

def isSingle : Setting → Bool
  | list _ | table _ => false
  | _ => true

def isTable : Setting → Bool
  | table _ => true
  | _ => false

theorem isTable_iff {s : Setting} : s.isTable = true ↔ ∃ ms, s = table ms := by
  cases s <;> simp [isTable]

def Agrees (found given : Option Setting) : Prop :=
  -- What holds other settings can have been put together from several sources.
  found = given ∨ ∃ s, found = some s ∧ s.isSingle = false

theorem Agrees.or_congr {found first given given' : Option Setting}
    (h : Agrees found (first.or given)) (hgiven : Agrees given given')
    : Agrees found (first.or given') := by
  cases h with
  | inl heq =>
    cases first with
    | some s => exact .inl heq
    | none =>
      rw [heq]
      exact hgiven
  | inr hmany => exact .inr hmany

theorem agrees_laidOver (new old : Setting) : Agrees (some (new.laidOver old)) (some new) := by
  cases new with
  | table ms =>
    right
    unfold laidOver
    exact ⟨_, rfl, rfl⟩
  | _ =>
    left
    unfold laidOver
    rfl

/--
The value at the end of a way of names. Of members with the same name the last one counts.
-/
def at? : List String → Setting → Option Setting
  | [], s => some s
  | name :: names, s => (s.members.reverse.lookup name).bind (at? names)

def behind? : List Step → List String → Option (List String)
  | [], names => some names
  | .key key :: steps, name :: names => if key = name then behind? steps names else none
  | _, _ => none

def makesTable (value : Setting) : List Step → Bool
  | [] => value.isTable
  | .key _ :: _ => true
  | .index _ :: _ => false

theorem lookup_cons_other {key name : String} (h : key ≠ name) (value : Setting)
    (ms : List (String × Setting)) : ((key, value) :: ms).lookup name = ms.lookup name := by
  simp only [List.lookup_cons, beq_eq_false_iff_ne.mpr (Ne.symm h)]

theorem lookup_alter_same (key : String) (change : Setting → Setting)
    (ms : List (String × Setting))
    : (alter key change ms).lookup key = some (change ((ms.lookup key).getD blank)) := by
  induction ms with
  | nil => exact List.lookup_cons_self
  | cons m ms ih =>
    rcases m with ⟨k, value⟩
    unfold alter
    by_cases hkey : k = key
    . subst hkey
      rw [if_pos rfl, List.lookup_cons_self, List.lookup_cons_self]
      rfl
    . rw [if_neg hkey, lookup_cons_other hkey, lookup_cons_other hkey]
      exact ih

theorem lookup_alter_other {key name : String} (h : key ≠ name) (change : Setting → Setting)
    (ms : List (String × Setting)) : (alter key change ms).lookup name = ms.lookup name := by
  induction ms with
  | nil => exact lookup_cons_other h _ _
  | cons m ms ih =>
    rcases m with ⟨k, value⟩
    unfold alter
    by_cases hkey : k = key
    . subst hkey
      rw [if_pos rfl, lookup_cons_other h, lookup_cons_other h]
    . rw [if_neg hkey, List.lookup_cons, List.lookup_cons, ih]

theorem agrees_lookup_membersOver (new old : List (String × Setting)) (name : String)
    : Agrees ((membersOver new old).lookup name)
        ((new.reverse.lookup name).or (old.lookup name)) := by
  induction new generalizing old with
  | nil =>
    unfold membersOver
    exact .inl rfl
  | cons m new ih =>
    rcases m with ⟨key, value⟩
    unfold membersOver
    rw [List.reverse_cons, List.lookup_append, Option.or_assoc]
    apply (ih _).or_congr
    by_cases hkey : key = name
    . subst hkey
      rw [lookup_alter_same, List.lookup_cons_self]
      exact agrees_laidOver value _
    . rw [lookup_alter_other hkey, lookup_cons_other hkey]
      exact .inl rfl

theorem place_key (value : Setting) (key : String) (steps : List Step) (old : Setting)
    : value.place (.key key :: steps) old
        =
      table (alter key (place value steps) old.members) := rfl

theorem behind?_key (key name : String) (steps : List Step) (names : List String)
    : behind? (.key key :: steps) (name :: names)
        =
      if key = name then behind? steps names else none := rfl

theorem agrees_lookup_place_key (value : Setting) (key : String) (steps : List Step)
    (old : Setting) (name : String)
    : Agrees ((value.place (.key key :: steps) old).members.lookup name)
        (((behind? (.key key :: steps) [name]).bind (at? · value)).or
          (old.members.lookup name)) := by
  rw [place_key, behind?_key, members_table]
  by_cases hkey : key = name
  . subst hkey
    rw [lookup_alter_same, if_pos rfl]
    cases steps with
    | nil => exact agrees_laidOver value _
    | cons step steps =>
      right
      cases step <;> exact ⟨_, rfl, rfl⟩
  . rw [lookup_alter_other hkey, if_neg hkey]
    exact .inl rfl

theorem agrees_lookup_place {value : Setting} {steps : List Step}
    (h : value.makesTable steps = true) (old : Setting) (name : String)
    : Agrees ((value.place steps old).members.lookup name)
        (((behind? steps [name]).bind (at? · value)).or (old.members.lookup name)) := by
  cases steps with
  | nil =>
    rcases isTable_iff.mp h with ⟨ms, rfl⟩
    have hgiven : ((behind? [] [name]).bind (at? · (table ms))) = ms.reverse.lookup name := by
      simp [behind?, at?]
    rw [hgiven]
    exact agrees_lookup_membersOver ms old.members name
  | cons step steps =>
    cases step with
    | key key => exact agrees_lookup_place_key value key steps old name
    | index position => cases h

theorem isTable_place {value : Setting} {steps : List Step} (h : value.makesTable steps = true)
    (old : Setting) : (value.place steps old).isTable = true := by
  cases steps with
  | nil =>
    rcases isTable_iff.mp h with ⟨ms, rfl⟩
    rfl
  | cons step steps =>
    cases step with
    | key key => rfl
    | index position => cases h

end FormLogic.Setting
