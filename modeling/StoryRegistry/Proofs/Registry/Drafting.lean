import StoryRegistry.Proofs.Registry.Rereading
import StoryRegistry.Registry.Assembly

/-!
# Documents that are put together

The item of a story file is what the schema makes of the file's document. Reading a registry
document that was put together from such items changes nothing, as long as no two of them share a
name.
-/

set_option autoImplicit false

namespace StoryRegistry

open Text

namespace Schema

/-- Names that are distinct, and none of which came before, do not recur. -/
theorem recurring_eq_nil {seen names : List String} (hnodup : names.Nodup)
    (hseen : ∀ name ∈ names, name ∉ seen) : recurring seen [] names = [] := by
  induction names generalizing seen with
  | nil => rfl
  | cons name rest ih =>
    obtain ⟨hnew, hrest⟩ := List.nodup_cons.1 hnodup
    have hfirst : seen.contains name = false := by
      simpa using hseen name List.mem_cons_self
    have hlater : ∀ other ∈ rest, other ∉ name :: seen := by
      intro other hother hmem
      rcases List.mem_cons.1 hmem with heq | hmem
      · exact hnew (heq ▸ hother)
      · exact hseen other (List.mem_cons_of_mem _ hother) hmem
    simp only [recurring, hfirst, Bool.false_and, Bool.false_eq_true, if_false]
    exact ih hrest hlater

end Schema

namespace Assembly

/-! ## The registry document -/

/-- The registry that is put together from items. -/
def gathered (settings : Settings) (items : List Item) : Registry where
  schema := Schema.registrySchema
  name := settings.registryName
  homepage := settings.homepage.filter (!·.isEmpty)
  items := items

/-- What is put together for a registry is the document of the registry put together. -/
theorem entries_gathered (settings : Settings) (items : List Item) :
    (gathered settings items).entries = registryDraft settings items := rfl

/-- The registry that the schema makes of a document put together from items. -/
def drafted (settings : Settings) (items : List Item) : Registry where
  schema := Schema.registrySchema
  name := settings.registryName
  homepage := settings.homepage.filter (!·.isEmpty)
  items := items.map Item.written

/-- The written items have the names of the items. -/
theorem names_drafted (settings : Settings) (items : List Item) :
    (drafted settings items).items.map Item.name = items.map Item.name :=
  (gathered settings items).names_written

/-- What was put together for a registry is the document of the registry read from it. -/
theorem document_drafted (settings : Settings) (items : List Item) :
    (drafted settings items).document = .map (registryDraft settings items) :=
  congrArg Value.map (gathered settings items).entries_written

/-- The entries of a registry document put together from sound items are taken. -/
theorem registryEntries_registryDraft {settings : Settings} {items : List Item}
    (hfilled : settings.registryName ≠ "") (hwritable : isWritable settings.registryName = true)
    (hsound : ∀ i ∈ items, i.IsSound) :
    Schema.registryEntries (registryDraft settings items) = .value (drafted settings items) := by
  rw [← entries_gathered]
  apply Schema.registryEntries_entries
  exact ⟨hwritable, by simpa [gathered] using hfilled, hsound⟩

/-- A registry document put together from sound items with distinct names is taken. -/
theorem ofDocument_registryDraft {settings : Settings} {items : List Item}
    (hfilled : settings.registryName ≠ "") (hwritable : isWritable settings.registryName = true)
    (hsound : ∀ i ∈ items, i.IsSound) (hnodup : (items.map Item.name).Nodup) :
    Registry.ofDocument (registryDraft settings items) = .ok (drafted settings items) := by
  have hentries := registryEntries_registryDraft hfilled hwritable hsound
  have hnone : Schema.recurring [] [] ((drafted settings items).items.map Item.name) = [] := by
    rw [names_drafted]
    exact Schema.recurring_eq_nil hnodup (by simp)
  have hdistinct : Schema.distinctItems (drafted settings items) =
      .value (drafted settings items) := by
    simp only [Schema.distinctItems, hnone]
  simp only [Registry.ofDocument, hentries, hdistinct]

/-- The name of a registry that can be read is not empty and has a UTF-8 form. -/
theorem name_of_ofDocument {settings : Settings} {items : List Item} {r : Registry}
    (h : Registry.ofDocument (registryDraft settings items) = .ok r) :
    settings.registryName ≠ "" ∧ Text.isWritable settings.registryName = true := by
  have hget : Table.get? "name" (registryDraft settings items) =
      some (.string settings.registryName) := get?_presentEntries "name" _ (by simp)
  unfold Registry.ofDocument at h
  cases hread : Schema.registryEntries (registryDraft settings items) with
  | refused found =>
    rw [hread] at h
    cases h
  | value made =>
    have hname := (Schema.registryEntries_eq_value_iff.1 hread).name
    obtain ⟨v, hv, htext⟩ := Schema.required_eq_value_iff.1 hname
    obtain ⟨hstring, hwritable, hfilled⟩ := Schema.filledText_eq_value_iff.1 htext
    rw [hget, hstring] at hv
    have hsame : settings.registryName = made.name := by simpa using hv
    rw [hsame]
    exact ⟨fun hempty => by simp [hempty] at hfilled, hwritable⟩

/-! ## The item of a story file -/

/-- A document is refused with a verdict, or else it is read. -/
theorem ofDocument_cases (entries : Table Value) (file : Option String) :
    (∃ i, Schema.itemEntries entries = .value i ∧ Item.ofDocument entries file = .ok i) ∨
      ∃ cause : Failure, cause.isVerdict = true ∧ Item.ofDocument entries file = .error cause := by
  unfold Item.ofDocument
  cases hread : Schema.itemEntries entries with
  | value i => exact Or.inl ⟨i, rfl, rfl⟩
  | refused found => exact Or.inr ⟨_, rfl, rfl⟩

/-- An item that a story file gives was read from the document put together for the file. -/
theorem itemEntries_of_item {settings : Settings} {f : StoryFile} {analysis : Option Analysis}
    {i : Item} (h : item settings f analysis = .ok (some i)) :
    Naming.kebab f.componentName ≠ reservedName ∧
      Schema.itemEntries (draft settings f analysis) = .value i := by
  unfold item at h
  split at h
  · cases h
  · dsimp only at h
    split at h
    · cases h
    · rename_i hname
      split at h
      · cases h
      · rcases ofDocument_cases (draft settings f analysis) (some f.path) with
          ⟨j, hread, hok⟩ | ⟨cause, -, herror⟩
        · rw [hok] at h
          cases h
          exact ⟨fun heq => hname (beq_iff_eq.2 heq), hread⟩
        · rw [herror] at h
          cases h

/-- The item of a story file is sound. -/
theorem isSound_of_item {settings : Settings} {f : StoryFile} {analysis : Option Analysis}
    {i : Item} (h : item settings f analysis = .ok (some i)) : i.IsSound :=
  Schema.isSound_of_itemEntries (itemEntries_of_item h).2

/-- The item of a story file goes by the registry form of the component's name. -/
theorem name_of_item {settings : Settings} {f : StoryFile} {analysis : Option Analysis}
    {i : Item} (h : item settings f analysis = .ok (some i)) :
    i.name = Naming.kebab f.componentName := by
  obtain ⟨-, hread⟩ := itemEntries_of_item h
  have hget : Table.get? "name" (draft settings f analysis) =
      some (.string (Naming.kebab f.componentName)) :=
    get?_presentEntries "name" _ (by simp only [List.map_cons, List.map_nil]; decide)
  obtain ⟨v, hv, hname⟩ :=
    Schema.required_eq_value_iff.1 (Schema.itemEntries_eq_value_iff.1 hread).name
  have htext := (Schema.filledText_eq_value_iff.1 (Schema.itemName_eq_value_iff.1 hname).1).1
  rw [hget, htext] at hv
  simpa using hv.symm

/-- An item fails only with a verdict, unless a style variable is too long an integer to write. -/
theorem isVerdict_of_item {settings : Settings} {f : StoryFile} {analysis : Option Analysis}
    {cause : Failure}
    (hfit : styleVarsFit (Value.entry "cssVars" f.metadata.parameterTable) = true)
    (h : item settings f analysis = .error cause) : cause.isVerdict = true := by
  unfold item at h
  split at h
  · cases h
  · simp only [hfit, Bool.not_true, Bool.false_eq_true, if_false] at h
    split at h
    · cases h
      rfl
    · rcases ofDocument_cases (draft settings f analysis) (some f.path) with
        ⟨j, -, hok⟩ | ⟨cause', hverdict, herror⟩
      · rw [hok] at h
        cases h
      · rw [herror] at h
        cases h
        exact hverdict

end Assembly

end StoryRegistry
