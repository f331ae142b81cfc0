import StoryRegistry.Proofs.Registry.Drafting
import StoryRegistry.Proofs.Step
import StoryRegistry.Proofs.Story.Outline
import StoryRegistry.Proofs.Text.Utf8

/-!
# What the schema makes of a story file

What is put together for a story file has every part in the shape that the schema asks for: style
variables are shown as texts, style sheet settings are a map, and what would be empty is left out.
The parts can therefore be refused only for the item's name and for the paths made from it. A name
that was guessed is a component name, whose registry form is an item name, so that an item is
refused only under the reserved name (`item_of_ofSource`).
-/

set_option autoImplicit false

namespace StoryRegistry

open Text

namespace Assembly

/-! ## Optional parts -/

/-- The texts, if there are any. -/
def filled (texts : List String) : Option (List String) :=
  if texts.isEmpty then none else some texts

/-- The style variables that a story gives for a scope, shown as texts. -/
def scopeTexts? (cssVars : Value) (scope : String) : Option (Table String) :=
  match cssVars with
  | .map entries =>
    match Value.entry scope entries with
    | .map vars => some (vars.map fun (name, v) => (name, v.spelled.shown))
    | _ => none
  | _ => none

/-- The style variables that a story gives, if it gives a scope. -/
def shownStyleVars? (cssVars : Value) : Option StyleVars :=
  if styleScopes.all fun scope => (scopeTexts? cssVars scope).isNone then none
  else some {
    theme := scopeTexts? cssVars "theme"
    light := scopeTexts? cssVars "light"
    dark := scopeTexts? cssVars "dark" }

/-- The style sheet settings that a story gives. -/
def shownTailwind? (settings : Value) : Option Tailwind :=
  match settings with
  | .map entries =>
    let config :=
      match Value.entry "config" entries with
      | .map inner => inner
      | _ => entries
    if config.isEmpty then none else some { config := some (Value.spelledEntries config) }
  | _ => none

/-- The item of a story file. -/
def assembled (settings : Settings) (f : StoryFile) (analysis : Option Analysis) : Item where
  schema := Schema.itemSchema
  name := Naming.kebab f.componentName
  type := settings.itemType f analysis
  title := title f
  description := description f
  dependencies := filled (packages settings.renames f)
  registryDependencies := filled (mentioned f.imports (Naming.kebab f.componentName))
  files := files (Naming.kebab f.componentName) (settings.itemType f analysis)
  styleVars := shownStyleVars? (Value.entry "cssVars" f.metadata.parameterTable)
  tailwind := shownTailwind? (Value.entry "tailwind" f.metadata.parameterTable)

theorem unlessEmpty_eq_map (texts : List String) :
    unlessEmpty texts = (filled texts).map Value.ofTexts := by
  unfold unlessEmpty filled
  cases texts.isEmpty <;> rfl

/-! ## Style variables and style sheet settings -/

/-- Style variables as they are put together: names are not yet in their written form. -/
def scopeValue (vars : Table String) : Value := .map (Table.mapEntries .string vars)

theorem shownVars_eq (vars : Table Value) :
    shownVars vars = scopeValue (vars.map fun (name, v) => (name, v.spelled.shown)) := by
  simp [shownVars, scopeValue, Table.mapEntries]

/-- The scopes that a story gives are the parts that are present. -/
theorem styleVars_eq (cssVars : Value) :
    styleVars cssVars = presentEntries
      (styleScopes.map fun scope => (scope, (scopeTexts? cssVars scope).map scopeValue)) := by
  unfold styleVars presentEntries scopeTexts?
  rw [List.filterMap_map]
  cases cssVars with
  | map entries =>
    apply List.filterMap_congr
    intro scope _
    cases hscope : Value.entry scope entries <;> simp [hscope, shownVars_eq]
  | _ => simp

/-- There is a style variable part exactly where some scope is given. -/
theorem styleVarsPart_eq (cssVars : Value) :
    (if (styleVars cssVars).isEmpty then none else some (Value.map (styleVars cssVars))) =
      (shownStyleVars? cssVars).map fun vars => Value.map (presentEntries
        [("theme", vars.theme.map scopeValue), ("light", vars.light.map scopeValue),
          ("dark", vars.dark.map scopeValue)]) := by
  have hempty : (styleVars cssVars).isEmpty =
      styleScopes.all fun scope => (scopeTexts? cssVars scope).isNone := by
    rw [styleVars_eq]
    simp only [presentEntries, styleScopes, List.map_cons, List.map_nil, List.all_cons,
      List.all_nil, List.filterMap_cons, List.filterMap_nil]
    cases scopeTexts? cssVars "theme" <;> cases scopeTexts? cssVars "light" <;>
      cases scopeTexts? cssVars "dark" <;> rfl
  unfold shownStyleVars?
  rw [hempty, styleVars_eq]
  cases styleScopes.all fun scope => (scopeTexts? cssVars scope).isNone <;> rfl

theorem tailwind?_eq (settings : Value) :
    tailwind? settings = (shownTailwind? settings).map fun t => Value.map (presentEntries
      [("config", t.config.map .map)]) := by
  unfold tailwind? shownTailwind?
  cases settings with
  | map entries =>
    dsimp only
    split <;> split <;> simp_all [presentEntries, Value.spelled]
  | _ => rfl

end Assembly

namespace Schema

open Assembly (scopeValue)

/-- Style variables that are put together are read. -/
theorem styleVars_scopeValues (vars : StyleVars) :
    styleVars (.map (presentEntries
      [("theme", vars.theme.map scopeValue), ("light", vars.light.map scopeValue),
        ("dark", vars.dark.map scopeValue)])) = .value vars := by
  have hget (name : String) := get?_presentEntries name
    [("theme", vars.theme.map scopeValue), ("light", vars.light.map scopeValue),
      ("dark", vars.dark.map scopeValue)] (by simp)
  have hnothing := nothingElse_presentEntries [["theme"], ["light"], ["dark"]]
    [("theme", vars.theme.map scopeValue), ("light", vars.light.map scopeValue),
      ("dark", vars.dark.map scopeValue)] (by simp)
  have hread (scope : Table String) : table text (scopeValue scope) = .value scope :=
    table_mapEntries text .string scope fun _ => rfl
  have htheme := field_optional_eq_value [] (table text) vars.theme scopeValue id (hget "theme")
    (by simp) (by simp [scopeValue]) fun scope _ => hread scope
  have hlight := field_optional_eq_value [] (table text) vars.light scopeValue id (hget "light")
    (by simp) (by simp [scopeValue]) fun scope _ => hread scope
  have hdark := field_optional_eq_value [] (table text) vars.dark scopeValue id (hget "dark")
    (by simp) (by simp [scopeValue]) fun scope _ => hread scope
  unfold styleVars record
  simp only [htheme, hlight, hdark, hnothing, Option.map_id_fun, id_eq]
  rfl

/-- Style sheet settings that are put together are read. -/
theorem tailwind_config (t : Tailwind) :
    tailwind (.map (presentEntries [("config", t.config.map .map)])) = .value t := by
  have hget (name : String) := get?_presentEntries name
    [("config", t.config.map Value.map)] (by simp)
  have hnothing := nothingElse_presentEntries [["config"]]
    [("config", t.config.map Value.map)] (by simp)
  have hread (entries : Table Value) : table Reading.value (.map entries) = .value entries := by
    simpa [Table.mapEntries] using table_mapEntries Reading.value id entries fun _ => rfl
  have hconfig := field_optional_eq_value [] _ t.config Value.map id (hget "config") (by simp)
    (by simp) fun entries _ => hread entries
  unfold tailwind record
  simp only [hconfig, hnothing, Option.map_id_fun, id_eq]
  rfl

end Schema

namespace Assembly

/-! ## The item -/

variable {settings : Settings} {f : StoryFile} {analysis : Option Analysis}

/-- The files of an item whose name can be written have paths that can be written. -/
theorem paths_of_files {name : String} (type : ItemType) (h : isWritable name = true) :
    ∀ file ∈ files name type, isWritable file.path = true ∧ file.path.isEmpty = false := by
  have hgrow {path : String} (more : String)
      (hpath : isWritable path = true ∧ path.isEmpty = false) (hmore : isWritable more = true) :
      isWritable (path ++ more) = true ∧ (path ++ more).isEmpty = false := by
    refine ⟨by rw [isWritable_append, hpath.1, hmore]; rfl, ?_⟩
    have hne : path ≠ "" := by simpa using hpath.2
    simp [hne]
  have hbase : isWritable (basePath ++ "/") = true ∧ (basePath ++ "/").isEmpty = false := by decide
  have hfolder := hgrow name hbase h
  have hnamed := hgrow name (hgrow "/" hfolder (by decide)) h
  intro file hfile
  cases type with
  | hook =>
    rw [List.mem_singleton.1 hfile]
    exact hgrow ".ts" (hgrow name (hgrow "/use-" hfolder (by decide)) h) (by decide)
  | lib =>
    rw [List.mem_singleton.1 hfile]
    exact hgrow ".ts" hnamed (by decide)
  | block =>
    rcases List.mem_cons.1 hfile with rfl | hfile
    · exact hgrow ".tsx" hnamed (by decide)
    · rw [List.mem_singleton.1 hfile]
      exact hgrow "/index.ts" hfolder (by decide)
  | _ =>
    rw [List.mem_singleton.1 hfile]
    exact hgrow ".tsx" hnamed (by decide)

theorem files_ne_nil (name : String) (type : ItemType) : files name type ≠ [] := by
  cases type <;> exact List.cons_ne_nil _ _

/-- An item name can be written where a text must not be empty. -/
theorem isWritable_of_isItemName {name : String} (h : Schema.isItemName name = true) :
    isWritable name = true ∧ name.isEmpty = false := by
  obtain ⟨hfilled, hchars⟩ := Schema.chars_of_isItemName h
  constructor
  · apply List.all_eq_true.2
    intro c hc
    have hascii : c.toNat < 128 := by
      rcases hchars c hc with rfl | hchar
      · decide
      · exact Schema.toNat_lt_of_isNameChar hchar
    have hplain : ¬ (0x10D800 ≤ c.toNat) := by omega
    simp [surrogate?, hplain]
  · apply Bool.eq_false_iff.2
    intro hempty
    exact hfilled (by rw [String.isEmpty_iff.1 hempty]; rfl)

/-- What is put together for a story file is taken if its component's name has an item name as its
registry form, whatever else the story file says. -/
theorem itemEntries_draft
    (hname : Schema.isItemName (Naming.kebab f.componentName) = true) :
    Schema.itemEntries (draft settings f analysis) = .value (assembled settings f analysis) := by
  obtain ⟨hwritable, hfilled⟩ := isWritable_of_isItemName hname
  have hget (name : String) : Table.get? name (draft settings f analysis) = _ :=
    get?_presentEntries name _ (by simp)
  have hfiles := Schema.list_map_eq_value Schema.itemFile ItemFile.document id fun file hfile =>
    Schema.itemFile_document (paths_of_files (settings.itemType f analysis) hwritable file hfile).1
      (paths_of_files _ hwritable file hfile).2
  have hvars := Schema.field_optional_eq_value ["css_vars"] Schema.styleVars
    (shownStyleVars? (Value.entry "cssVars" f.metadata.parameterTable)) _ id
    ((hget "cssVars").trans (styleVarsPart_eq _))
    (fun other hother => by rw [List.mem_singleton.1 hother]; exact hget _)
    (by simp) fun vars _ => Schema.styleVars_scopeValues vars
  have hwind := Schema.field_optional_eq_value [] Schema.tailwind
    (shownTailwind? (Value.entry "tailwind" f.metadata.parameterTable)) _ id
    ((hget "tailwind").trans (tailwind?_eq _)) (by simp) (by simp)
    fun t _ => Schema.tailwind_config t
  rw [List.map_id] at hfiles
  rw [Option.map_id, id_eq] at hvars hwind
  apply Schema.itemEntries_eq_value_iff.2
  exact {
    schema := Schema.field_of_given ["schema_url"] Schema.itemSchema Schema.text (hget "$schema") rfl
    name := Schema.required_of_given Schema.itemName (hget "name") (Schema.itemName_eq_value_iff.2
      ⟨Schema.filledText_eq_value_iff.2 ⟨rfl, hwritable, hfilled⟩, hname⟩)
    type := Schema.required_of_given Schema.itemType (hget "type")
      (Schema.itemType_text (settings.itemType f analysis))
    title := Schema.required_of_given Schema.text (hget "title") rfl
    description := Schema.required_of_given Schema.text (hget "description") rfl
    author := Schema.field_of_absent fun other hother => by
      rw [List.mem_singleton.1 hother]; exact hget _
    dependencies := Schema.field_texts_eq_value [] (filled (packages settings.renames f))
      ((hget "dependencies").trans (unlessEmpty_eq_map _)) (by simp)
    registryDependencies := Schema.field_texts_eq_value ["registry_dependencies"]
      (filled (mentioned f.imports (Naming.kebab f.componentName)))
      ((hget "registryDependencies").trans (unlessEmpty_eq_map _))
      fun other hother => by rw [List.mem_singleton.1 hother]; exact hget _
    files := Schema.required_of_given (Schema.filledList Schema.itemFile) (hget "files")
      (Schema.filledList_eq_value_iff.2 ⟨hfiles, files_ne_nil _ _⟩)
    styleVars := hvars
    tailwind := hwind
    nothingElse := Schema.nothingElse_presentEntries _ _ (by
      simp [Schema.itemFields, Schema.schemaNames, Schema.registryDependenciesNames,
        Schema.styleVarsNames]) }

/-- The item that a story file gives is the one put together for it. -/
theorem eq_assembled_of_item {i : Item} (h : item settings f analysis = .ok (some i)) :
    i = assembled settings f analysis := by
  have hname := (isSound_of_item h).isItemName
  rw [name_of_item h] at hname
  have hread := (itemEntries_of_item h).2
  rw [itemEntries_draft hname] at hread
  exact (Reading.value.inj hread).symm

/-! ## Story files that were read -/

/-- The component of a story file that was read has a name that was guessed, if it has one. -/
theorem isComponentName_of_ofSource {path source : String} {f : StoryFile}
    (hread : StoryFile.ofSource path source = .ok f) (hnamed : f.componentName ≠ "") :
    IsComponentName f.componentName := by
  obtain ⟨-, hnone⟩ | ⟨-, hname⟩ := StoryFile.componentName_cases hread
  · exact absurd hnone hnamed
  · exact hname

end Assembly

end StoryRegistry
