import FormLogic.Proofs.Settings.Placing
import FormLogic.Settings.Basic
import Mathlib.Data.List.Basic
import Mathlib.Data.List.TakeWhile

/-!
This module contains the proof that the settings of a program are those that the last source gives,
key by key. A source that gives one member of a table leaves the other members as the sources before
it gave them. The files that count are named by what the program is called with, whatever the
sources say.
-/

namespace FormLogic.Settings

open Setting

def given? (source : List (String × Setting)) (names : List String) : Option Setting :=
  source.reverse.findSome? fun item => (behind? (address item.1) names).bind (at? · item.2)

def lastGiven? (sources : List (List (String × Setting))) (names : List String) : Option Setting :=
  sources.reverse.findSome? (given? · names)

/--
A source gives a name tables and members of tables only.
-/
def GivesTables (source : List (String × Setting)) (name : String) : Prop :=
  ∀ item ∈ source, (address item.1).head? = some (.key name) →
    item.2.makesTable (address item.1).tail = true

instance (source : List (String × Setting)) (name : String)
    : Decidable (GivesTables source name) := List.decidableBAll _ source

def arguments (service environment : String) : List (String × Setting) :=
  [("service_name", .text service), ("environment", .text environment)]

/--
What the program is called with, the files and the environment variables.
-/
def sources? (service environment : String) (file : String → Option String)
    (bindings : List (String × String)) : Option (List (List (String × Setting))) := do
  let files ← (sourceNames service environment).mapM (source? file)
  return arguments service environment :: files ++ [Variables.read bindings]

theorem gather?_eq (service environment : String) (file : String → Option String)
    (bindings : List (String × String))
    : gather? service environment file bindings
        =
      (sources? service environment file bindings).map fun sources =>
        sources.foldl layer (.table []) := by
  unfold gather? sources?
  cases (sourceNames service environment).mapM (source? file) <;> rfl

theorem exists_address_eq (text : String) : ∃ key steps, address text = .key key :: steps := by
  unfold address
  cases hname : Step.name? text.toList with
  | none => exact ⟨text, [], rfl⟩
  | some first =>
    rcases first with ⟨step, rest⟩
    have hkey : ∃ key, step = .key key := by
      unfold Step.name? at hname
      dsimp only at hname
      split at hname
      . cases hname
      . cases hname
        exact ⟨_, rfl⟩
    rcases hkey with ⟨key, rfl⟩
    cases hmore : Step.more? rest.length rest with
    | none => exact ⟨text, [], by simp [hmore]⟩
    | some steps => exact ⟨key, steps, by simp [hmore]⟩

theorem agrees_foldl {α : Type} (step : Setting → α → Setting) (found : Setting → Option Setting)
    (gives : α → Option Setting) (keeps : Setting → Prop) {items : List α}
    (hstep : ∀ item ∈ items, ∀ below, keeps below →
      keeps (step below item)
        ∧ Agrees (found (step below item)) ((gives item).or (found below)))
    {below : Setting} (hbelow : keeps below)
    : keeps (items.foldl step below)
        ∧ Agrees (found (items.foldl step below))
            ((items.reverse.findSome? gives).or (found below)) := by
  -- Every step puts what it gives before what was found so far.
  induction items generalizing below with
  | nil => exact ⟨hbelow, .inl rfl⟩
  | cons item items ih =>
    have hfirst := hstep item List.mem_cons_self below hbelow
    have hrest := ih (fun item hmem => hstep item (List.mem_cons_of_mem _ hmem)) hfirst.1
    refine ⟨hrest.1, ?_⟩
    have hlast : ((item :: items).reverse.findSome? gives).or (found below)
        = (items.reverse.findSome? gives).or ((gives item).or (found below)) := by
      rw [List.reverse_cons, List.findSome?_append, Option.or_assoc, List.findSome?_cons]
      cases gives item <;> rfl
    rw [hlast]
    exact hrest.2.or_congr hfirst.2

theorem agrees_layers (found : Setting → Option Setting) (keeps : Setting → Prop)
    {sources : List (List (String × Setting))} {names : List String}
    (hitem : ∀ source ∈ sources, ∀ item ∈ source, ∀ below, keeps below →
      keeps (item.2.place (address item.1) below)
        ∧ Agrees (found (item.2.place (address item.1) below))
            (((behind? (address item.1) names).bind (at? · item.2)).or (found below)))
    (hkeeps : keeps (.table [])) (hfound : found (.table []) = none)
    : keeps (sources.foldl layer (.table []))
        ∧ Agrees (found (sources.foldl layer (.table []))) (lastGiven? sources names) := by
  have hsource : ∀ source ∈ sources, ∀ below, keeps below →
      keeps (layer below source)
        ∧ Agrees (found (layer below source)) ((given? source names).or (found below)) :=
    fun source hmem below hbelow => agrees_foldl _ found _ keeps (hitem source hmem) hbelow
  have hall := agrees_foldl layer found (given? · names) keeps hsource hkeeps
  rw [hfound, Option.or_none] at hall
  exact hall

theorem agrees_lookup_layers (sources : List (List (String × Setting))) (name : String)
    : Agrees ((sources.foldl layer (.table [])).members.lookup name)
        (lastGiven? sources [name]) := by
  refine (agrees_layers (·.members.lookup name) (fun _ => True) ?_ trivial rfl).2
  intro source _ item _ below _
  rcases exists_address_eq item.1 with ⟨key, steps, haddress⟩
  rw [haddress]
  exact ⟨trivial, agrees_lookup_place_key item.2 key steps below name⟩

def KeepsTable (name : String) (below : Setting) : Prop :=
  ∀ s, below.members.lookup name = some s → s.isTable = true

theorem agrees_lookup_lookup_layers {sources : List (List (String × Setting))} {outer : String}
    (h : ∀ source ∈ sources, GivesTables source outer) (name : String)
    : KeepsTable outer (sources.foldl layer (.table []))
        ∧ Agrees (((sources.foldl layer (.table [])).members.lookup outer).bind
              (·.members.lookup name))
            (lastGiven? sources [outer, name]) := by
  refine agrees_layers (fun below => (below.members.lookup outer).bind (·.members.lookup name))
    (KeepsTable outer) ?_ ?_ rfl
  . intro source hsource item hitem below hbelow
    rcases exists_address_eq item.1 with ⟨key, steps, haddress⟩
    rw [haddress, place_key, behind?_key]
    unfold KeepsTable
    rw [members_table]
    by_cases hkey : key = outer
    . subst hkey
      have hmakes := h source hsource item hitem
      rw [haddress] at hmakes
      replace hmakes := hmakes rfl
      rw [lookup_alter_same, if_pos rfl]
      refine ⟨?_, ?_⟩
      . intro s hs
        cases hs
        exact isTable_place hmakes _
      . have hold : (below.members.lookup key).bind (·.members.lookup name)
            = ((below.members.lookup key).getD blank).members.lookup name := by
          cases below.members.lookup key <;> rfl
        rw [hold]
        exact agrees_lookup_place hmakes _ name
    . rw [lookup_alter_other hkey, if_neg hkey]
      exact ⟨hbelow, .inl rfl⟩
  . intro s hs
    cases hs

theorem valueOr_of_agrees {α : Type} {default value : α} {read : Setting → Option α}
    (hread : ∀ s, s.isSingle = false → read s = none) {found given : Option Setting}
    (hagrees : Agrees found given) (hfound : valueOr default read found = some value)
    : valueOr default read given = some value := by
  rcases hagrees with heq | ⟨s, rfl, hsingle⟩
  . rw [← heq]
    exact hfound
  . have hnone : valueOr default read (some s) = none := hread s hsingle
    rw [hnone] at hfound
    cases hfound

theorem asText?_eq_none (s : Setting) (h : s.isSingle = false) : s.asText? = none := by
  cases s with
  | list items => rfl
  | table ms => rfl
  | _ => cases h

theorem asTruth?_eq_none (s : Setting) (h : s.isSingle = false) : s.asTruth? = none := by
  cases s with
  | list items => rfl
  | table ms => rfl
  | _ => cases h

theorem member?_eq {record : Option Setting} (h : ∀ s, record = some s → s.isTable = true)
    (position : Nat) (key : String)
    : member? record position key = some (record.bind (·.members.lookup key)) := by
  cases record with
  | none => rfl
  | some s =>
    rcases isTable_iff.mp (h s rfl) with ⟨ms, rfl⟩
    rfl

theorem source?_congr {file file' : String → Option String} {source : String}
    (h : ∀ entry ∈ fileNames source, file' entry.1 = file entry.1)
    : source? file' source = source? file source := by
  unfold source?
  have hfound : (fileNames source).findSome? (fun entry => (file' entry.1).map (entry.2, ·))
      = (fileNames source).findSome? (fun entry => (file entry.1).map (entry.2, ·)) := by
    rw [← List.head?_filterMap, ← List.head?_filterMap]
    congr 1
    apply List.filterMap_congr
    intro entry hmem
    rw [h entry hmem]
  rw [hfound]

theorem mapM_congr {α β : Type} {f g : α → Option β} {items : List α}
    (h : ∀ item ∈ items, f item = g item) : items.mapM f = items.mapM g := by
  induction items with
  | nil => rfl
  | cons item items ih =>
    rw [List.mapM_cons, List.mapM_cons, h item List.mem_cons_self,
      ih fun item hmem => h item (List.mem_cons_of_mem _ hmem)]

theorem load?_congr {service environment : String} {file file' : String → Option String}
    (bindings : List (String × String))
    (h : ∀ source ∈ sourceNames service environment, ∀ entry ∈ fileNames source,
      file' entry.1 = file entry.1)
    : load? service environment file' bindings = load? service environment file bindings := by
  unfold load? gather?
  rw [mapM_congr fun source hmem => source?_congr (h source hmem)]

/--
Every setting is read from what is given for it, or has its default if nothing is.
-/
structure IsReadFrom (settings : Settings) (given : List String → Option Setting) : Prop where
  serviceName : valueOr fallback.serviceName asText? (given ["service_name"])
    = some settings.serviceName
  environment : valueOr fallback.environment asText? (given ["environment"])
    = some settings.environment
  fieldsPath : valueOr fallback.fieldsPath asText? (given ["catalog", "fields_path"])
    = some settings.fieldsPath
  contextsPath : valueOr fallback.contextsPath asText? (given ["catalog", "contexts_path"])
    = some settings.contextsPath
  reportingName : valueOr Reporting.default.serviceName asText?
    (given ["observability", "service_name"]) = some settings.reporting.serviceName
  logLevel : valueOr Reporting.default.logLevel asText? (given ["observability", "log_level"])
    = some settings.reporting.logLevel
  jsonLogs : valueOr Reporting.default.jsonLogs asTruth? (given ["observability", "json_logs"])
    = some settings.reporting.jsonLogs

theorem isReadFrom_of_ofMembers? {sources : List (List (String × Setting))} {settings : Settings}
    (hcatalogue : ∀ source ∈ sources, GivesTables source "catalog")
    (hreporting : ∀ source ∈ sources, GivesTables source "observability")
    (h : ofMembers? (sources.foldl layer (.table [])).members = some settings)
    : settings.IsReadFrom (lastGiven? sources) := by
  have hplain := agrees_lookup_layers sources
  have hfile := agrees_lookup_lookup_layers hcatalogue
  have hreport := agrees_lookup_lookup_layers hreporting
  simp only [ofMembers?, Option.bind_eq_bind, Option.bind_some, Option.bind_eq_some_iff,
    Option.pure_def, member?_eq (hfile "").1, member?_eq (hreport "").1, Option.some.injEq] at h
  rcases h with ⟨service, hservice, environment, henvironment, fields, hfields, contexts, hcontexts,
    name, hname, level, hlevel, json, hjson, rfl⟩
  have htext {default value : String} := @valueOr_of_agrees String default value _ asText?_eq_none
  constructor
  . exact htext (hplain "service_name") hservice
  . exact htext (hplain "environment") henvironment
  . exact htext (hfile "fields_path").2 hfields
  . exact htext (hfile "contexts_path").2 hcontexts
  . exact htext (hreport "service_name").2 hname
  . exact htext (hreport "log_level").2 hlevel
  . exact valueOr_of_agrees asTruth?_eq_none (hreport "json_logs").2 hjson

theorem loaded_settings_are_last_given {service environment : String}
    {file : String → Option String} {bindings : List (String × String)}
    {sources : List (List (String × Setting))} {settings : Settings}
    (hsources : sources? service environment file bindings = some sources)
    (hcatalogue : ∀ source ∈ sources, GivesTables source "catalog")
    (hreporting : ∀ source ∈ sources, GivesTables source "observability")
    (hload : load? service environment file bindings = some settings)
    : settings.IsReadFrom (lastGiven? sources)
        ∧ ∀ file', (∀ source ∈ sourceNames service environment, ∀ entry ∈ fileNames source,
              file' entry.1 = file entry.1)
            → load? service environment file' bindings = some settings := by
  refine ⟨?_, ?_⟩
  . unfold load? at hload
    rw [gather?_eq, hsources] at hload
    exact isReadFrom_of_ofMembers? hcatalogue hreporting hload
  . intro file' hfile
    rw [load?_congr bindings hfile]
    exact hload

def layeredFile (name : String) : Option String :=
  match name with
  | "default.toml" => some ("environment = \"local\"\n[catalog]\nfields_path = \"f.json\"\n"
    ++ "contexts_path = \"c.json\"\n")
  | "test.toml" => some "[catalog]\nfields_path = \"t.json\"\n"
  | _ => none

def layeredBindings : List (String × String) :=
  [("FORM_OBSERVABILITY__JSON_LOGS", "1"), ("FORM_SERVICE_NAME", "forms")]

deriving instance DecidableEq for Reporting

deriving instance DecidableEq for Settings

theorem loaded_settings_are_last_given_layered
    : ∃ sources settings,
        settings = ⟨"forms", "local", "t.json", "c.json", ⟨"unknown-service", "info", true⟩⟩
          ∧ sources? "api" "test" layeredFile layeredBindings = some sources
          ∧ (∀ source ∈ sources, GivesTables source "catalog")
          ∧ (∀ source ∈ sources, GivesTables source "observability")
          ∧ load? "api" "test" layeredFile layeredBindings = some settings
          ∧ settings.IsReadFrom (lastGiven? sources) := by
  have htables : (sources? "api" "test" layeredFile layeredBindings).any (fun sources =>
      sources.all fun source => GivesTables source "catalog" ∧ GivesTables source "observability")
        = true := by decide +kernel
  have hload : load? "api" "test" layeredFile layeredBindings
      = some ⟨"forms", "local", "t.json", "c.json", ⟨"unknown-service", "info", true⟩⟩ := by
    decide +kernel
  rw [Option.any_eq_true_iff_get] at htables
  rcases htables with ⟨hsome, hall⟩
  have hboth := fun source hmem => of_decide_eq_true (List.all_eq_true.mp hall source hmem)
  have hsources := Option.eq_some_of_isSome hsome
  have hcatalogue := fun source hmem => (hboth source hmem).1
  have hreporting := fun source hmem => (hboth source hmem).2
  exact ⟨_, _, rfl, hsources, hcatalogue, hreporting, hload,
    (loaded_settings_are_last_given hsources hcatalogue hreporting hload).1⟩

end FormLogic.Settings
