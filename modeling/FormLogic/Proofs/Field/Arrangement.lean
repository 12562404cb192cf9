import FormLogic.Field.Reader
import FormLogic.Proofs.Json.Acceptance
import FormLogic.Proofs.Json.Arrangement
import Mathlib.Logic.Relation

/-!
This module contains the proof that it does not matter how a field and its rules are laid out in a
text. Every one of them can be an object with its members in any order and others between them, or
an array, whatever the others are.
-/

namespace FormLogic

open Document Mismatch

namespace Document

def ofAbsent (key : String) : Document :=
  if key ∈ ["message", "label", "type"] then .ofText ""
  else if key ∈ ["conditions", "visibilityLogic"] then .array [] true
  else .null

theorem isIntact_ofAbsent (key : String) : (ofAbsent key).isIntact := by
  unfold ofAbsent
  split
  . rfl
  . split
    . rfl
    . rfl

end Document

theorem Condition.isLawful : form.IsLawful ofAbsent := by
  constructor
  . simp only [form, List.pairwise_cons, List.forall_mem_cons]
    and_intros
    all_goals first
      | exact List.forall_mem_nil _
      | exact List.Pairwise.nil
      | exact Slot.isIndependent_ofMember (by decide) (fun _ _ => rfl) (fun _ _ => rfl)
          (fun _ _ _ => rfl)
  . simp [form, Slot.ofMember]
  . simp only [form, List.forall_mem_cons]
    and_intros
    all_goals first
      | exact List.forall_mem_nil _
      | exact Slot.isFilled_of_fill_ofMember fun _ _ => rfl
  . intro slot hslot hrequired draft record hfinish
    simp only [form, bind_eq_ok_iff, require_eq_ok_iff] at hfinish
    rcases hfinish with ⟨id, hid, path, hpath, operator, hoperator, _⟩
    simp only [form, List.mem_cons, List.not_mem_nil, or_false] at hslot
    rcases hslot with rfl | rfl | rfl | rfl
    . exact Option.isSome_of_eq_some hid
    . exact Option.isSome_of_eq_some hpath
    . exact Option.isSome_of_eq_some hoperator
    . cases hrequired
  . simp [form, Slot.ofMember]

theorem Validation.isLawful : form.IsLawful ofAbsent := by
  constructor
  . simp only [form, List.pairwise_cons, List.forall_mem_cons]
    and_intros
    all_goals first
      | exact List.forall_mem_nil _
      | exact List.Pairwise.nil
      | exact Slot.isIndependent_ofMember (by decide) (fun _ _ => rfl) (fun _ _ => rfl)
          (fun _ _ _ => rfl)
  . simp [form, Slot.ofMember]
  . simp only [form, List.forall_mem_cons]
    and_intros
    all_goals first
      | exact List.forall_mem_nil _
      | exact Slot.isFilled_of_fill_ofMember fun _ _ => rfl
  . intro slot hslot hrequired draft record hfinish
    have hid : ∃ id, draft.id = some id := by
      simp only [form, ofDraft, bind_eq_ok_iff, require_eq_ok_iff] at hfinish
      rcases hfinish with ⟨id, hid, _⟩
      exact ⟨id, hid⟩
    rcases hid with ⟨id, hid⟩
    simp only [form, List.mem_cons, List.not_mem_nil, or_false] at hslot
    rcases hslot with rfl | rfl | rfl | rfl | rfl | rfl
    . exact Option.isSome_of_eq_some hid
    all_goals cases hrequired
  . simp only [form, List.dropLast, List.forall_mem_cons]
    refine ⟨nofun, ?_, ?_, ?_, ?_, List.forall_mem_nil _⟩
    . rintro _ room ⟨id, _ | message, logic, path, operator, value⟩ hfree
      . exact ⟨_, rfl, rfl⟩
      . cases hfree
    . rintro _ room ⟨id, message, _ | logic, path, operator, value⟩ hfree
      . exact ⟨_, rfl, rfl⟩
      . cases hfree
    . rintro _ room ⟨id, message, logic, _ | path, operator, value⟩ hfree
      . exact ⟨_, rfl, rfl⟩
      . cases hfree
    . rintro _ room ⟨id, message, logic, path, _ | operator, value⟩ hfree
      . exact ⟨_, rfl, rfl⟩
      . cases hfree

namespace Field

theorem isLawful : form.IsLawful ofAbsent := by
  constructor
  . simp only [form, List.pairwise_cons, List.forall_mem_cons]
    and_intros
    all_goals first
      | exact List.forall_mem_nil _
      | exact List.Pairwise.nil
      | exact Slot.isIndependent_ofMember (by decide) (fun _ _ => rfl) (fun _ _ => rfl)
          (fun _ _ _ => rfl)
  . simp [form, Slot.ofMember]
  . simp only [form, List.forall_mem_cons]
    and_intros
    all_goals first
      | exact List.forall_mem_nil _
      | exact Slot.isFilled_of_fill_ofMember fun _ _ => rfl
  . intro slot hslot hrequired draft record hfinish
    simp only [form, bind_eq_ok_iff, require_eq_ok_iff] at hfinish
    rcases hfinish with ⟨name, hname, _⟩
    simp only [form, List.mem_cons, List.not_mem_nil, or_false] at hslot
    rcases hslot with rfl | rfl | rfl | rfl | rfl | rfl
    . exact Option.isSome_of_eq_some hname
    all_goals cases hrequired
  . simp only [form, List.dropLast, List.forall_mem_cons]
    refine ⟨nofun, ?_, ?_, ?_, ?_, List.forall_mem_nil _⟩
    . rintro _ room ⟨name, _ | label, kind, conditions, visibility, validations⟩ hfree
      . exact ⟨_, rfl, rfl⟩
      . cases hfree
    . rintro _ room ⟨name, label, _ | kind, conditions, visibility, validations⟩ hfree
      . exact ⟨_, rfl, rfl⟩
      . cases hfree
    . rintro _ room ⟨name, label, kind, _ | conditions, visibility, validations⟩ hfree
      . exact ⟨_, rfl, rfl⟩
      . cases hfree
    . rintro _ room ⟨name, label, kind, conditions, _ | visibility, validations⟩ hfree
      . exact ⟨_, rfl, rfl⟩
      . cases hfree

/--
One step in laying out a field differently: the field itself, one of its conditions or one of its
validations is laid out differently.
-/
inductive Relaid : Document → Document → Prop where
  | field {d d' : Document} (h : form.Relaid ofAbsent d d') : Relaid d d'
  | condition (front back : List Document) {c c' d d' : Document}
    (h : Condition.form.Relaid ofAbsent c c')
    (hd : form.Replaced "conditions" (.array (front ++ c :: back) true)
      (.array (front ++ c' :: back) true) d d') : Relaid d d'
  | validation (front back : List Document) {rule rule' d d' : Document}
    (h : Validation.form.Relaid ofAbsent rule rule')
    (hd : form.Replaced "validations" (.array (front ++ rule :: back) true)
      (.array (front ++ rule' :: back) true) d d') : Relaid d d'

theorem ofDocument_of_relaid {d d' : Document} (hd : Relaid d d') {f : Field}
    (h : ofDocument maxDepth d = .ok f) : ofDocument maxDepth d' = .ok f := by
  unfold ofDocument at h ⊢
  cases hd with
  | field hd => exact isLawful.read_of_relaid hd h
  | condition front back hc hd =>
    refine isLawful.read_of_replaced (List.mem_of_getElem? (i := 3) rfl) ?_ hd h
    intro draft next hfill
    rw [Slot.fill_ofMember_eq_ok_iff] at hfill ⊢
    rcases hfill with ⟨conditions, hconditions, hnext⟩
    refine ⟨conditions, asList_replaced ?_ hconditions, hnext⟩
    exact fun c => Condition.isLawful.read_of_relaid hc
  | validation front back hrule hd =>
    refine isLawful.read_of_replaced (List.mem_of_getElem? (i := 5) rfl) ?_ hd h
    intro draft next hfill
    rw [Slot.fill_ofMember_eq_ok_iff] at hfill ⊢
    rcases hfill with ⟨rules, hrules, hnext⟩
    refine ⟨rules, ?_, hnext⟩
    rw [asOption_eq_ok_iff] at hrules ⊢
    rcases hrules with ⟨heq, _⟩ | ⟨_, values, hvalues, hresult⟩
    . cases heq
    . refine .inr ⟨nofun, values, asList_replaced ?_ hvalues, hresult⟩
      exact fun rule => Validation.isLawful.read_of_relaid hrule

theorem Relaid.isIntact {d d' : Document} (hd : Relaid d d') (h : d.isIntact) : d'.isIntact := by
  cases hd with
  | field hd => exact hd.isIntact isIntact_ofAbsent h
  | condition front back hc hd =>
    exact hd.isIntact (isIntact_array_replaced (hc.isIntact isIntact_ofAbsent)) h
  | validation front back hrule hd =>
    exact hd.isIntact (isIntact_array_replaced (hrule.isIntact isIntact_ofAbsent)) h

/--
A field is read from a text exactly as from any other text in which the field and its rules are laid
out differently, in any number of steps. There is such a text.
-/
theorem ofText_of_relaid {text : String} {f : Field} {d : Document} (h : ofText text = .ok f)
    (hd : Relation.ReflTransGen Relaid (Document.read text).1 d)
    : (∃ text', Document.read text' = (d, true))
        ∧ ∀ text', Document.read text' = (d, true) → ofText text' = .ok f := by
  unfold ofText at h
  rw [decode_eq_ok_iff] at h
  rcases h with ⟨start, hstart, hread⟩
  rw [hstart] at hd
  have hintact := ((read_eq_iff text start).mp hstart).1
  have hend : d.isIntact ∧ ofDocument maxDepth d = .ok f := by
    induction hd with
    | refl => exact ⟨hintact, hread⟩
    | tail _ hstep ih => exact ⟨hstep.isIntact ih.1, ofDocument_of_relaid hstep ih.2⟩
  refine ⟨⟨_, read_write hend.1⟩, ?_⟩
  intro text' htext'
  unfold ofText
  rw [decode_eq_ok_iff]
  exact ⟨d, htext', hend.2⟩

theorem ofText_of_relaid_in_three_steps
    : let condition : Document := .object [(some "operator", .ofText "equals"),
        (some "id", .ofText "a"), (some "field", .ofText "x")] true
      let swapped : Document := .object [(some "id", .ofText "a"),
        (some "operator", .ofText "equals"), (some "field", .ofText "x")] true
      let leaf := [(some "operator", .ofText "less_than"), (some "id", .ofText "b"),
        (some "field", .ofText "y")]
      let start : Document := .object [(some "validations", .array [.object leaf true] true),
        (some "conditions", .array [condition] true), (some "name", .ofText "f")] true
      let last : Document := .array [.ofText "f", .ofText "", .ofText "", .array [swapped] true,
        .array [] true, .array [.object ((some "note", .null) :: leaf) true] true] true
      let f : Field := ⟨"f", "", "", [⟨"a", "x", .equals, none⟩], [],
        some [.leaf ⟨"b", "y", .lessThan, none, ""⟩]⟩
      let text := String.ofList start.write
      ofText text = .ok f ∧ Relation.ReflTransGen Relaid (Document.read text).1 last
        ∧ ∀ text', Document.read text' = (last, true) → ofText text' = .ok f := by
  intro condition swapped leaf start last f text
  have hread : Document.read text = (start, true) := read_write rfl
  have hstart : ofText text = .ok f := by
    unfold ofText
    rw [decode_eq_ok_iff]
    exact ⟨start, hread, rfl⟩
  have hsteps : Relation.ReflTransGen Relaid (Document.read text).1 last := by
    rw [hread]
    have hinserted : Validation.form.Relaid ofAbsent (.object leaf true)
        (.object ((some "note", .null) :: leaf) true) :=
      .inserted [] leaf rfl rfl
    have hswapped : Condition.form.Relaid ofAbsent condition swapped := .permuted (.swap _ _ _)
    refine .head (.validation [] [] hinserted (.member [] _ true)) ?_
    refine .head (.field (.listed _)) ?_
    exact .single (.condition [] [] hswapped (.item [_, _, _] _ true rfl rfl))
  exact ⟨hstart, hsteps, (ofText_of_relaid hstart hsteps).2⟩

end Field

end FormLogic
