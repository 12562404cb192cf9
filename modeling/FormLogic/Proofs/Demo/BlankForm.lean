import FormLogic.Demo
import FormLogic.Proofs.Path.Layers

/-!
This module contains the proof that a form without content blanks its fields and nothing else. The
names of fields become members of one object, so they are found as they are written, whatever paths
they would be, and what lies behind other first steps is left alone. Whether a field is shown does
not depend on the form.
-/

namespace FormLogic

namespace Json

theorem find?_insertAll_same (members : List (String × Json)) (keys : List String) (value : Json)
    (key : String)
    : find? (insertAll members (keys.map fun key => (key, value))) key
        =
      if key ∈ keys then some value else find? members key := by
  induction keys generalizing members with
  | nil => rfl
  | cons first keys ih =>
    have hrest := ih (insert members first value)
    rw [find?_insert] at hrest
    refine hrest.trans ?_
    by_cases hkey : key ∈ keys
    . rw [if_pos hkey, if_pos (List.mem_cons_of_mem first hkey)]
    . rw [if_neg hkey]
      simp [hkey, eq_comm]

end Json

namespace Demo

def blankMembers (names : List String) : List (String × Json) :=
  Json.ofMembers (names.map fun name => (name, .string ""))

theorem find?_blankMembers (names : List String) (key : String)
    : Json.find? (blankMembers names) key = if key ∈ names then some (.string "") else none :=
  Json.find?_insertAll_same [] names (.string "") key

theorem nodup_keys_blankMembers (names : List String)
    : ((blankMembers names).map (·.1)).Nodup :=
  (Json.isSorted_ofMembers _).nodup_keys

def blankedMembers (data : Json) (names : List String) : List (String × Json) :=
  match data with
  | .object members => Json.insertAll members (blankMembers names)
  | _ => blankMembers names

theorem filled_eq (label : String) (ctx : Context) (names : List String)
    : (Scene.mk label ctx none).filled names = ⟨.object (blankedMembers ctx.data names)⟩ := by
  rcases ctx with ⟨data⟩
  cases data with
  | object members => rfl
  | _ => rfl

theorem find?_blankedMembers_of_mem (data : Json) {names : List String} {name : String}
    (h : name ∈ names) : Json.find? (blankedMembers data names) name = some (.string "") := by
  have hblank := find?_blankMembers names name
  rw [if_pos h] at hblank
  unfold blankedMembers
  split
  . rw [Json.find?_insertAll (nodup_keys_blankMembers names), hblank]
    rfl
  . exact hblank

theorem find?_blankedMembers_object (members : List (String × Json)) {names : List String}
    {key : String} (h : key ∉ names)
    : Json.find? (blankedMembers (.object members) names) key = Json.find? members key := by
  have hblank := find?_blankMembers names key
  rw [if_neg h] at hblank
  unfold blankedMembers
  dsimp only
  rw [Json.find?_insertAll (nodup_keys_blankMembers names), hblank]
  rfl

theorem get?_blankMembers {names : List String} {path : String} (hpath : path ∉ names)
    (hfirst : ∀ first ∈ (Path.segments path).head?, first ∉ names)
    : (Context.mk (.object (blankMembers names))).get? path = none := by
  -- A form in which nothing is found is like one without any members.
  have hempty : (Context.mk (.object (blankMembers names))).get? path
      = (Context.mk (.object [])).get? path := by
    apply Context.get?_object_congr
    . rw [find?_blankMembers, if_neg hpath]
      rfl
    . intro first hmem
      rw [find?_blankMembers, if_neg (hfirst first hmem)]
      rfl
  rw [hempty]
  unfold Context.get?
  cases Path.segments path <;> rfl

/--
The text of a list, in which every line has the name of a field, whether it is shown, and its error.
-/
def table (label : String) (width : Nat) (lines : List ((String × Bool) × Option String))
    : String :=
  let rows := lines.map fun line =>
    row width line.1.1 (if line.1.2 then "true" else "false") (line.2.getD "-")
  "\n--- Context: " ++ label ++ " ---\n" ++ row width "name" "visible" "error"
    ++ String.join rows

theorem list_eq_table (c : Catalogue) (names : List String) (scene : Scene)
    : list c names scene
        =
      table scene.label (nameWidth names)
        ((c.revisions.map fun r => (r.name, r.field.isVisible scene.context)).zip
          (c.revisions.map fun r => r.field.validate (scene.filled names))) := by
  unfold list table
  rw [List.zip_map', List.map_map]
  rfl

theorem blank_form_blanks_loaded_names (fields : List Field) (label : String) (ctx : Context)
    : let names := fields.map (·.name)
      let form := (Scene.mk label ctx none).filled names
      let c := (Catalogue.empty (.ofTracing false)).loadAll fields
      let visible := fun ctx => c.revisions.map fun r => (r.name, r.field.isVisible ctx)
      let errors := fun form => c.revisions.map fun r => r.field.validate form
      (∀ name ∈ names, form.get? name = some (.string ""))
        ∧ (∀ path, path ∉ names → (∀ first ∈ (Path.segments path).head?, first ∉ names)
            → (∀ members, ctx.data = .object members → form.get? path = ctx.get? path)
              ∧ ((∀ members, ctx.data ≠ .object members) → form.get? path = none))
        ∧ ∀ scenes,
            lists fields scenes
              =
            String.join (scenes.map fun scene =>
              table scene.label (nameWidth names)
                ((visible scene.context).zip (errors (scene.filled names)))) := by
  intro names form c visible errors
  have hform : form = ⟨.object (blankedMembers ctx.data names)⟩ := filled_eq label ctx names
  refine ⟨?_, ?_, ?_⟩
  . intro name hname
    rw [hform]
    exact Context.get?_of_literal? (find?_blankedMembers_of_mem ctx.data hname)
  . intro path hpath hfirst
    rw [hform]
    rcases ctx with ⟨data⟩
    constructor
    . intro members hdata
      dsimp only at hdata
      subst hdata
      apply Context.get?_object_congr
      . exact find?_blankedMembers_object members hpath
      . intro first hmem
        exact find?_blankedMembers_object members (hfirst first hmem)
    . intro hdata
      cases data with
      | object members => exact absurd rfl (hdata members)
      | _ => exact get?_blankMembers hpath hfirst
  . intro scenes
    apply congrArg String.join
    apply List.map_congr_left
    intro scene _
    exact list_eq_table c names scene

theorem blank_form_blanks_loaded_names_beside_paths
    : let fields := [Field.plain "a.b" "" "", .plain "x[0]" "" "", .plain "a.b" "" ""]
      let names := fields.map (·.name)
      let ctx : Context := ⟨.object [("a", .object [("b", .null), ("c", .null)]), ("x", .array [])]⟩
      let form := (Scene.mk "" ctx none).filled names
      "x[0]" ∈ names
        ∧ form.get? "x[0]" = some (.string "")
        ∧ "a.c" ∉ names
        ∧ (∀ first ∈ (Path.segments "a.c").head?, first ∉ names)
        ∧ form.get? "a.c" = some .null := by
  intro fields names ctx form
  have hmem : "x[0]" ∈ names := by decide
  have hpath : "a.c" ∉ names := by decide
  have hfirst : ∀ first ∈ (Path.segments "a.c").head?, first ∉ names := by
    intro first hmem
    cases hmem
    decide
  have ⟨hblank, hother, _⟩ := blank_form_blanks_loaded_names fields "" ctx
  refine ⟨hmem, hblank "x[0]" hmem, hpath, hfirst, ?_⟩
  exact ((hother "a.c" hpath hfirst).1 _ rfl).trans rfl

end Demo

end FormLogic
