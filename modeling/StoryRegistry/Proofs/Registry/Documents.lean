import StoryRegistry.Proofs.Registry.Ownership
import StoryRegistry.Proofs.Value.Json.Reading

/-!
# Documents as JSON

Every document of an item or of a registry is a value that JSON texts denote: what is written holds
no source text and no number without digits, and no map of it has a name twice. What stands in a
file of a document is therefore read as the document, and the schema makes of it the item or the
registry that it documents.
-/

set_option autoImplicit false

namespace StoryRegistry

namespace Value

/-! ## Free values -/

theorem areJson_iff {items : List Value} : AreJson items ↔ ∀ v ∈ items, v.IsJson := by
  induction items with
  | nil => simp [AreJson]
  | cons v rest ih => simp [AreJson, ih]

theorem entriesAreJson_iff {entries : Table Value} :
    EntriesAreJson entries ↔ ∀ e ∈ entries, e.2.IsJson := by
  induction entries with
  | nil => simp [EntriesAreJson]
  | cons e rest ih => simp [EntriesAreJson, ih]

theorem isJson_list {items : List Value} (h : ∀ v ∈ items, v.IsJson) : (list items).IsJson := by
  rw [IsJson]
  exact areJson_iff.2 h

theorem isJson_map {entries : Table Value} (hnames : (Table.names entries).Nodup)
    (h : ∀ e ∈ entries, e.2.IsJson) : (map entries).IsJson := by
  rw [IsJson]
  exact ⟨hnames, entriesAreJson_iff.2 h⟩

theorem isJson_string (s : String) : (string s).IsJson := by
  rw [IsJson]
  exact trivial

/-- A map that is made from entries has each name once. -/
theorem isJson_map_ofList {entries : List (String × Value)} (h : ∀ e ∈ entries, e.2.IsJson) :
    (map (Table.ofList entries)).IsJson :=
  isJson_map (Table.nodup_names_ofList entries) fun e he => h e (Table.mem_of_mem_ofList he)

mutual

/-- What is written of a free value is a value that JSON texts denote. -/
theorem isJson_written : ∀ v : Value, v.written.IsJson
  | .null | .bool _ | .int _ | .string _ => by simp [written, IsJson]
  | .double (.finite negative size) => by simp [written, IsJson]
  | .double (.infinite _) | .double .nan => by simp [written, IsJson]
  | .code text => by
    rw [written]
    exact isJson_map (by simp [Table.names]) (by simpa using isJson_string text)
  | .list items => by
    rw [written]
    exact isJson_list (isJson_writtenItems items)
  | .map entries => by
    rw [written]
    exact isJson_map_ofList (isJson_writtenEntries entries)

theorem isJson_writtenItems : ∀ (items : List Value), ∀ v ∈ writtenItems items, v.IsJson
  | [], v, h => by simp [writtenItems] at h
  | w :: rest, v, h => by
    rw [writtenItems] at h
    rcases List.mem_cons.1 h with rfl | hrest
    · exact isJson_written w
    · exact isJson_writtenItems rest v hrest

theorem isJson_writtenEntries :
    ∀ (entries : List (String × Value)), ∀ e ∈ writtenEntries entries, e.2.IsJson
  | [], e, h => by simp [writtenEntries] at h
  | (name, v) :: rest, e, h => by
    rw [writtenEntries] at h
    rcases List.mem_cons.1 h with rfl | hrest
    · exact isJson_written v
    · exact isJson_writtenEntries rest e hrest

end

/-! ## Parts that are present -/

/-- The parts that are present have their names, in the order of the parts. -/
theorem names_presentEntries_sublist (parts : List (String × Option Value)) :
    (Table.names (presentEntries parts)).Sublist (parts.map Prod.fst) := by
  induction parts with
  | nil => exact List.Sublist.refl _
  | cons head rest ih =>
    obtain ⟨name, part⟩ := head
    cases part with
    | none => exact ih.cons name
    | some v => exact ih.cons_cons name

/-- Parts with names of their own make up a value that JSON texts denote, if those that are present
are such values. -/
theorem isJson_presentEntries {parts : List (String × Option Value)}
    (hnames : (parts.map Prod.fst).Nodup) (h : ∀ part ∈ parts, ∀ v ∈ part.2, v.IsJson) :
    (map (presentEntries parts)).IsJson := by
  refine isJson_map (hnames.sublist (names_presentEntries_sublist parts)) fun e he => ?_
  obtain ⟨part, hpart, hsome⟩ := List.mem_filterMap.1 he
  obtain ⟨v, hv, rfl⟩ := Option.map_eq_some_iff.1 hsome
  exact h part hpart v hv

theorem isJson_ofTexts (texts : List String) : (ofTexts texts).IsJson := by
  refine isJson_list fun v hv => ?_
  obtain ⟨s, -, rfl⟩ := List.mem_map.1 hv
  exact isJson_string s

end Value

/-! ## Documents -/

open Value (isJson_presentEntries isJson_string isJson_ofTexts)

theorem ItemFile.isJson_document (f : ItemFile) : f.document.IsJson :=
  isJson_presentEntries (by simp) (by simp [isJson_string])

theorem StyleVars.isJson_scopeDocument (vars : Table String) : (scopeDocument vars).IsJson := by
  refine Value.isJson_map_ofList fun e he => ?_
  obtain ⟨source, -, rfl⟩ := List.mem_map.1 he
  exact isJson_string source.2

theorem StyleVars.isJson_document (vars : StyleVars) : vars.document.IsJson :=
  isJson_presentEntries (by simp) (by simp [isJson_scopeDocument])

theorem Tailwind.isJson_document (t : Tailwind) : t.document.IsJson :=
  isJson_presentEntries (by simp) (by simp [Value.isJson_written])

/-- The document of an item is a value that JSON texts denote. -/
theorem Item.isJson_document (i : Item) : i.document.IsJson := by
  have hfiles : (Value.list (i.files.map ItemFile.document)).IsJson :=
    Value.isJson_list (by simp [ItemFile.isJson_document])
  exact isJson_presentEntries (by simp) (by
    simp [isJson_string, isJson_ofTexts, hfiles, StyleVars.isJson_document,
      Tailwind.isJson_document])

/-- The document of a registry is a value that JSON texts denote. -/
theorem Registry.isJson_document (r : Registry) : r.document.IsJson := by
  have hitems : (Value.list (r.items.map Item.document)).IsJson :=
    Value.isJson_list (by simp [Item.isJson_document])
  exact isJson_presentEntries (by simp) (by simp [isJson_string, hitems])

/-! ## Reading documents again -/

/-- The document of a sound item is read as the item in its written form. -/
theorem Item.ofDocument_entries {i : Item} (h : i.IsSound) (file : Option String) :
    ofDocument i.entries file = .ok i.written := by
  unfold ofDocument
  rw [Schema.itemEntries_entries h]

namespace Assembly

variable {settings : Settings} {stories : List StoryFile} {analyses : List (Option Analysis)}
  {r : Registry}

/-- The document of a registry that was made is read as the registry. -/
theorem ofDocument_document (h : (registry settings stories analyses).2 = .ok r) :
    Registry.ofDocument (r.document.asMap?.getD []) = .ok r := by
  obtain ⟨hmade, hunbroken⟩ := registry_ok h
  have hdocument : r.document.asMap?.getD [] =
      registryDraft settings (keptItems (outcomes settings [] stories analyses)) := by
    rw [hmade, document_drafted]
    rfl
  rw [hdocument, ← registry_of_unbroken hunbroken]
  exact h

/-- The document of an item of a registry that was made is read as the item. -/
theorem ofDocument_entries (h : (registry settings stories analyses).2 = .ok r) {i : Item}
    (hi : i ∈ r.items) (file : Option String) : Item.ofDocument i.entries file = .ok i := by
  rw [(registry_ok h).1] at hi
  obtain ⟨j, hj, rfl⟩ := List.mem_map.1 hi
  rw [j.entries_written]
  exact Item.ofDocument_entries (isSound_of_mem_keptItems hj) file

end Assembly

end StoryRegistry
