import FormLogic.Field.Printer
import FormLogic.Field.Reader
import FormLogic.Proofs.Comparison.Sameness
import FormLogic.Proofs.Json.Reading
import FormLogic.Proofs.Json.Record
import FormLogic.Proofs.Json.Values

/-!
This module contains the proof that a field is read back from its text. The texts that fields are
read from are more than those that fields are printed as, but every field that is read from any text
is one that is read back from its own.
-/

namespace FormLogic

deriving instance ReflBEq for Condition

deriving instance ReflBEq for Leaf

deriving instance ReflBEq for Composite

deriving instance ReflBEq for Validation

deriving instance ReflBEq for Field

open Document Mismatch

namespace LogicToken

def IsUnreserved : LogicToken → Prop
  | operand id => id ≠ "AND" ∧ id ≠ "OR" ∧ id ≠ "NOT"
  | _ => True

theorem ofName_name {token : LogicToken} (h : token.IsUnreserved) : ofName token.name = token := by
  cases token with
  | operand id =>
    unfold ofName
    split
    . next heq => exact absurd heq h.1
    . next heq => exact absurd heq h.2.1
    . next heq => exact absurd heq h.2.2
    . rfl
  | _ => rfl

theorem isUnreserved_ofName (s : String) : (ofName s).IsUnreserved := by
  unfold ofName
  split
  . trivial
  . trivial
  . trivial
  . next hand hor hnot => exact ⟨hand, hor, hnot⟩

theorem ofDocument_toDocument {tokens : List LogicToken}
    (h : ∀ token ∈ tokens, token.IsUnreserved) (room : Nat)
    : ofDocument (room + 1) (toDocument tokens) = .ok tokens := by
  apply asList_map_eq_ok
  intro token htoken
  have hname := ofName_name (h token htoken)
  rw [ofText, asText]
  exact congrArg Except.ok hname

theorem isIntact_toDocument (tokens : List LogicToken) : (toDocument tokens).isIntact :=
  areIntact_map fun _ _ => rfl

theorem isUnreserved_of_ofDocument {room : Nat} {d : Document} {tokens : List LogicToken}
    (h : ofDocument room d = .ok tokens) : ∀ token ∈ tokens, token.IsUnreserved := by
  have ⟨room', hroom⟩ := exists_room_of_asList_eq_ok h
  subst hroom
  refine forall_mem_of_asList_eq_ok (P := IsUnreserved) ?_ h
  intro d token htoken
  cases htext : d.asText with
  | error fault =>
    rw [htext] at htoken
    cases htoken
  | ok s =>
    rw [htext] at htoken
    cases htoken
    exact isUnreserved_ofName s

end LogicToken

namespace Operator

theorem ofDocument_toDocument (op : Operator) (room : Nat)
    : ofDocument room op.toDocument = .ok op := by
  rw [toDocument, ofText, ofDocument, named, ofName?_name]

end Operator

namespace Condition

def IsPrintable (c : Condition) (room : Nat) : Prop := ∀ v ∈ c.value, v.Fits room

theorem ofDocument_toDocument {c : Condition} {room : Nat} (h : c.IsPrintable room)
    : ofDocument (room + 1) c.toDocument = .ok c := by
  rcases c with ⟨id, path, operator, value⟩
  have hvalue : ∀ v ∈ value, asValue room v.toDocument = .ok v := by
    intro v hv
    exact Json.asValue_toDocument (h v hv)
  have hfill : form.fillMembers room
      ((some "id", .ofText id) :: (some "field", .ofText path)
        :: (some "operator", operator.toDocument)
        :: Document.member? "value" Json.toDocument value)
      form.blank
      = .ok ⟨some id, some path, some operator, value⟩ := by
    refine (RecordForm.fillMembers_cons rfl rfl rfl _).trans ?_
    refine (RecordForm.fillMembers_cons rfl rfl rfl _).trans ?_
    refine (RecordForm.fillMembers_cons rfl rfl (operator.ofDocument_toDocument room) _).trans ?_
    refine (RecordForm.fillMembers_member? rfl rfl hvalue).trans ?_
    cases value with
    | none => rfl
    | some v => rfl
  unfold ofDocument toDocument
  rw [RecordForm.read_object hfill]
  rfl

theorem isIntact_toDocument (c : Condition) : c.toDocument.isIntact :=
  areIntactMembers_member? "value" fun v _ => v.isIntact_toDocument

theorem isKept (room : Nat) : form.IsKept room fun draft => ∀ v ∈ draft.value, v.Fits room := by
  constructor
  . intro v hv
    cases hv
  . simp only [form, List.forall_mem_cons]
    refine ⟨?_, ?_, ?_, ?_, List.forall_mem_nil _⟩
    . exact Slot.keeps_ofMember fun _ _ _ hdraft _ => hdraft
    . exact Slot.keeps_ofMember fun _ _ _ hdraft _ => hdraft
    . exact Slot.keeps_ofMember fun _ _ _ hdraft _ => hdraft
    . apply Slot.keeps_ofMember
      intro d draft value hdraft hvalue v hv
      cases hv
      exact Json.fits_of_asValue hvalue

theorem isPrintable_of_ofDocument {room : Nat} {d : Document} {c : Condition}
    (h : ofDocument (room + 1) d = .ok c) : c.IsPrintable room := by
  have ⟨draft, hdraft, hfinish⟩ := (isKept room).of_read h
  simp only [form, bind_eq_ok_iff, require_eq_ok_iff] at hfinish
  rcases hfinish with ⟨id, hid, path, hpath, operator, hoperator, hc⟩
  cases hc
  exact hdraft

end Condition

namespace Validation

def IsPrintable (room : Nat) : Validation → Prop
  | leaf rule => ∀ v ∈ rule.value, v.Fits room
  | composite rule => ∀ token ∈ rule.logic, token.IsUnreserved

theorem ofDocument_toDocument {rule : Validation} {room : Nat} (h : rule.IsPrintable (room + 1))
    : ofDocument (room + 2) rule.toDocument = .ok rule := by
  cases rule with
  | leaf rule =>
    rcases rule with ⟨id, path, operator, value, message⟩
    have hvalue : ∀ v ∈ value, asValue (room + 1) v.toDocument = .ok v := by
      intro v hv
      exact Json.asValue_toDocument (h v hv)
    have hoperator : operator.toDocument.asOption (Operator.ofDocument (room + 1))
        = .ok (some operator) := asOption_eq_ok_some nofun (operator.ofDocument_toDocument _)
    have hfill : form.fillMembers (room + 1)
        ((some "id", .ofText id) :: (some "message", .ofText message)
          :: (some "field", .ofText path) :: (some "operator", operator.toDocument)
          :: Document.member? "value" Json.toDocument value)
        form.blank
        = .ok ⟨some id, some message, none, some (some path), some (some operator), value⟩ := by
      refine (RecordForm.fillMembers_cons rfl rfl rfl _).trans ?_
      refine (RecordForm.fillMembers_cons rfl rfl rfl _).trans ?_
      refine (RecordForm.fillMembers_cons rfl rfl rfl _).trans ?_
      refine (RecordForm.fillMembers_cons rfl rfl hoperator _).trans ?_
      refine (RecordForm.fillMembers_member? rfl rfl hvalue).trans ?_
      cases value with
      | none => rfl
      | some v => rfl
    unfold ofDocument toDocument
    rw [RecordForm.read_object hfill]
    rfl
  | composite rule =>
    rcases rule with ⟨id, logic, message⟩
    have hlogic : (LogicToken.toDocument logic).asOption (LogicToken.ofDocument (room + 1))
        = .ok (some logic) := asOption_eq_ok_some nofun (LogicToken.ofDocument_toDocument h room)
    have hfill : form.fillMembers (room + 1)
        [(some "id", .ofText id), (some "message", .ofText message),
          (some "logic", LogicToken.toDocument logic)]
        form.blank
        = .ok ⟨some id, some message, some (some logic), none, none, none⟩ := by
      refine (RecordForm.fillMembers_cons rfl rfl rfl _).trans ?_
      refine (RecordForm.fillMembers_cons rfl rfl rfl _).trans ?_
      refine (RecordForm.fillMembers_cons rfl rfl hlogic _).trans ?_
      rfl
    unfold ofDocument toDocument
    rw [RecordForm.read_object hfill]
    rfl

theorem isIntact_toDocument (rule : Validation) : rule.toDocument.isIntact := by
  cases rule with
  | leaf rule => exact areIntactMembers_member? "value" fun v _ => v.isIntact_toDocument
  | composite rule =>
    unfold toDocument
    simp [isIntact, areIntactMembers, LogicToken.isIntact_toDocument, ofText]

structure Draft.IsPrintable (draft : Draft) (room : Nat) : Prop where
  logic : ∀ tokens ∈ draft.logic.join, ∀ token ∈ tokens, token.IsUnreserved
  value : ∀ v ∈ draft.value, v.Fits room

theorem isKept (room : Nat) : form.IsKept room (·.IsPrintable room) := by
  constructor
  . constructor
    . intro tokens htokens
      cases htokens
    . intro v hv
      cases hv
  . simp only [form, List.forall_mem_cons]
    refine ⟨?_, ?_, ?_, ?_, ?_, ?_, List.forall_mem_nil _⟩
    . exact Slot.keeps_ofMember fun _ _ _ hdraft _ => ⟨hdraft.logic, hdraft.value⟩
    . exact Slot.keeps_ofMember fun _ _ _ hdraft _ => ⟨hdraft.logic, hdraft.value⟩
    . apply Slot.keeps_ofMember
      intro d draft logic hdraft hlogic
      refine ⟨?_, hdraft.value⟩
      intro tokens htokens
      rw [asOption_eq_ok_iff] at hlogic
      rcases hlogic with ⟨_, rfl⟩ | ⟨_, tokens', htokens', rfl⟩
      . cases htokens
      . cases htokens
        exact LogicToken.isUnreserved_of_ofDocument htokens'
    . exact Slot.keeps_ofMember fun _ _ _ hdraft _ => ⟨hdraft.logic, hdraft.value⟩
    . exact Slot.keeps_ofMember fun _ _ _ hdraft _ => ⟨hdraft.logic, hdraft.value⟩
    . apply Slot.keeps_ofMember
      intro d draft value hdraft hvalue
      refine ⟨hdraft.logic, ?_⟩
      intro v hv
      cases hv
      exact Json.fits_of_asValue hvalue

theorem isPrintable_of_ofDraft {draft : Draft} {rule : Validation} {room : Nat}
    (hdraft : draft.IsPrintable room) (h : ofDraft draft = .ok rule) : rule.IsPrintable room := by
  rw [ofDraft, bind_eq_ok_iff] at h
  rcases h with ⟨id, hid, h⟩
  dsimp only at h
  split at h
  . next logic hlogic =>
    cases h
    exact hdraft.logic logic hlogic
  . split at h
    . cases h
    . cases h
    . cases h
      exact hdraft.value

theorem isPrintable_of_ofDocument {room : Nat} {d : Document} {rule : Validation}
    (h : ofDocument (room + 1) d = .ok rule) : rule.IsPrintable room := by
  have ⟨draft, hdraft, hfinish⟩ := (isKept room).of_read h
  exact isPrintable_of_ofDraft hdraft hfinish

end Validation

namespace Field

/--
A field that a text can stand for. Of the 127 containers that may be open one inside the other, the
field, its list of rules and the rule leave 124 to an expected value.
-/
structure IsPrintable (f : Field) : Prop where
  conditions : ∀ c ∈ f.conditions, c.IsPrintable 124
  visibility : ∀ token ∈ f.visibility, token.IsUnreserved
  validations : ∀ rule ∈ f.rules, rule.IsPrintable 124

theorem ofDocument_toDocument {f : Field} (h : f.IsPrintable)
    : ofDocument maxDepth f.toDocument = .ok f := by
  rcases f with ⟨name, label, kind, conditions, visibility, validations⟩
  have hconditions : asList Condition.ofDocument 126 (.array (conditions.map (·.toDocument)) true)
      = .ok conditions := by
    apply asList_map_eq_ok
    intro c hc
    exact Condition.ofDocument_toDocument (h.conditions c hc)
  have hvisibility := LogicToken.ofDocument_toDocument h.visibility 125
  have hvalidations : ∀ rules ∈ validations,
      Document.asOption (asList Validation.ofDocument 126) (.array (rules.map (·.toDocument)) true)
      = .ok (some rules) := by
    intro rules hrules
    subst hrules
    refine asOption_eq_ok_some nofun (asList_map_eq_ok ?_)
    intro rule hrule
    exact Validation.ofDocument_toDocument (h.validations rule hrule)
  have hfill : form.fillMembers 126
      ((some "name", .ofText name) :: (some "label", .ofText label) :: (some "type", .ofText kind)
        :: (some "conditions", .array (conditions.map (·.toDocument)) true)
        :: (some "visibilityLogic", LogicToken.toDocument visibility)
        :: Document.member? "validations" (fun rules => .array (rules.map (·.toDocument)) true)
          validations)
      form.blank
      = .ok ⟨some name, some label, some kind, some conditions, some visibility,
        validations.map some⟩ := by
    refine (RecordForm.fillMembers_cons rfl rfl rfl _).trans ?_
    refine (RecordForm.fillMembers_cons rfl rfl rfl _).trans ?_
    refine (RecordForm.fillMembers_cons rfl rfl rfl _).trans ?_
    refine (RecordForm.fillMembers_cons rfl rfl hconditions _).trans ?_
    refine (RecordForm.fillMembers_cons rfl rfl hvisibility _).trans ?_
    refine (RecordForm.fillMembers_member? rfl rfl hvalidations).trans ?_
    cases validations with
    | none => rfl
    | some rules => rfl
  unfold ofDocument toDocument
  rw [maxDepth, RecordForm.read_object hfill]
  cases validations with
  | none => rfl
  | some rules => rfl

structure Draft.IsPrintable (draft : Draft) : Prop where
  conditions : ∀ conditions ∈ draft.conditions, ∀ c ∈ conditions, c.IsPrintable 124
  visibility : ∀ tokens ∈ draft.visibility, ∀ token ∈ tokens, token.IsUnreserved
  validations : ∀ rules ∈ draft.validations.join, ∀ rule ∈ rules, rule.IsPrintable 124

theorem isKept : form.IsKept 126 Draft.IsPrintable := by
  constructor
  . constructor
    . intro conditions hconditions
      cases hconditions
    . intro tokens htokens
      cases htokens
    . intro rules hrules
      cases hrules
  . simp only [form, List.forall_mem_cons]
    refine ⟨?_, ?_, ?_, ?_, ?_, ?_, List.forall_mem_nil _⟩
    . exact Slot.keeps_ofMember fun _ _ _ hdraft _ =>
        ⟨hdraft.conditions, hdraft.visibility, hdraft.validations⟩
    . exact Slot.keeps_ofMember fun _ _ _ hdraft _ =>
        ⟨hdraft.conditions, hdraft.visibility, hdraft.validations⟩
    . exact Slot.keeps_ofMember fun _ _ _ hdraft _ =>
        ⟨hdraft.conditions, hdraft.visibility, hdraft.validations⟩
    . apply Slot.keeps_ofMember
      intro d draft conditions hdraft hconditions
      refine ⟨?_, hdraft.visibility, hdraft.validations⟩
      intro _ heq
      cases heq
      exact forall_mem_of_asList_eq_ok (fun _ _ => Condition.isPrintable_of_ofDocument) hconditions
    . apply Slot.keeps_ofMember
      intro d draft tokens hdraft htokens
      refine ⟨hdraft.conditions, ?_, hdraft.validations⟩
      intro _ heq
      cases heq
      exact LogicToken.isUnreserved_of_ofDocument htokens
    . apply Slot.keeps_ofMember
      intro d draft rules hdraft hrules
      refine ⟨hdraft.conditions, hdraft.visibility, ?_⟩
      intro _ heq
      rw [asOption_eq_ok_iff] at hrules
      rcases hrules with ⟨_, rfl⟩ | ⟨_, rules', hrules', rfl⟩
      . cases heq
      . cases heq
        exact forall_mem_of_asList_eq_ok (fun _ _ => Validation.isPrintable_of_ofDocument) hrules'

theorem isPrintable_of_ofDocument {d : Document} {f : Field}
    (h : ofDocument maxDepth d = .ok f) : f.IsPrintable := by
  have ⟨draft, hdraft, hfinish⟩ := isKept.of_read h
  simp only [form, bind_eq_ok_iff, require_eq_ok_iff] at hfinish
  rcases hfinish with ⟨name, hname, hf⟩
  rcases draft with ⟨_, label, kind, conditions, visibility, validations⟩
  cases hf
  constructor
  . cases conditions with
    | none => exact List.forall_mem_nil _
    | some conditions => exact hdraft.conditions conditions rfl
  . cases visibility with
    | none => exact List.forall_mem_nil _
    | some tokens => exact hdraft.visibility tokens rfl
  . rcases validations with _ | _ | rules
    . exact List.forall_mem_nil _
    . exact List.forall_mem_nil _
    . exact hdraft.validations rules rfl

theorem isIntact_toDocument (f : Field) : f.toDocument.isIntact := by
  have hconditions : areIntact (f.conditions.map (·.toDocument)) :=
    areIntact_map fun c _ => c.isIntact_toDocument
  have hvalidations : areIntactMembers (Document.member? "validations"
      (fun rules => .array (rules.map (·.toDocument)) true) f.validations) :=
    areIntactMembers_member? "validations" fun rules _ =>
      areIntact_map fun rule _ => rule.isIntact_toDocument
  have hvisibility := LogicToken.isIntact_toDocument f.visibility
  unfold toDocument
  simp [isIntact, areIntactMembers, hconditions, hvisibility, hvalidations, Document.ofText]

/--
The field that is read is the one that was printed. So an undefined value is still told from `null`,
absent validations from none, whole numbers from others and leaves from composites.
-/
theorem ofText_text (f : Field)
    : (f.IsPrintable ↔ ∃ text, ofText text = .ok f)
        ∧
      (f.IsPrintable → ∃ g, ofText f.text = .ok g ∧ (g == f) = true ∧ g = f ∧ g.text = f.text) := by
  have hread : f.IsPrintable → ofText f.text = .ok f := by
    intro h
    unfold ofText
    rw [decode_eq_ok_iff]
    exact ⟨f.toDocument, read_write f.isIntact_toDocument, ofDocument_toDocument h⟩
  constructor
  . constructor
    . intro h
      exact ⟨f.text, hread h⟩
    . intro h
      rcases h with ⟨text, htext⟩
      unfold ofText at htext
      rw [decode_eq_ok_iff] at htext
      rcases htext with ⟨d, _, hd⟩
      exact isPrintable_of_ofDocument hd
  . intro h
    exact ⟨f, hread h, BEq.rfl, rfl, rfl⟩

theorem ofText_text_mixed
    : let found : Json := .array [.number (.whole 0 (by decide)), .number (.real (.zero true)),
        .object [("k", .string "\x07"), ("l", .array [])]]
      let f : Field := ⟨"f \"1\"", "字段", "\n",
        [⟨"a", "x", .equals, none⟩, ⟨"b", "x", .equals, some .null⟩,
          ⟨"c", "y", .includes, some found⟩],
        [.operand "a", .operand "b", .or],
        some [.leaf ⟨"l", "x", .lessThan, some (.bool true), ""⟩,
          .composite ⟨"m", [.operand "l", .not], "\\"⟩]⟩
      f.IsPrintable ∧ ∃ g, ofText f.text = .ok g ∧ (g == f) = true ∧ g = f ∧ g.text = f.text := by
  intro found f
  have hsorted : Json.IsSorted [("k", .string "\x07"), ("l", .array [])] :=
    List.pairwise_pair.mpr (by decide)
  have hfound : found.Fits 124 :=
    ⟨by decide, trivial, trivial, ⟨hsorted, trivial, trivial, trivial⟩, trivial⟩
  have hnull : Json.null.Fits 124 := ⟨by decide, trivial⟩
  have htrue : (Json.bool true).Fits 124 := ⟨by decide, trivial⟩
  have h : f.IsPrintable := by
    constructor
    . simp [f, Condition.IsPrintable, hnull, hfound]
    . simp [f, LogicToken.IsUnreserved]
    . simp [f, rules, Validation.IsPrintable, LogicToken.IsUnreserved, htrue]
  exact ⟨h, (ofText_text f).2 h⟩

end Field

end FormLogic
