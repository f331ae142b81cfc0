import StoryRegistry.Proofs.Registry.Written

/-!
# Reading a written document back

What the schema takes for an item has an item name and ships files at proper paths. The document of
such an item is taken again and gives the item in its written form, so a registry document that is
put together from items that were read once is refused only for its own name or for two items that
share one.
-/

set_option autoImplicit false

namespace StoryRegistry

open Text

/-! ## Reading single fields back -/

namespace Schema

variable {α β : Type}

/-- A field that is given under its first name is read from there. -/
theorem field_of_given {name : String} (others : List String) (absent : α)
    (read : Value → Reading α) {entries : Table Value} {v : Value} {a : α}
    (hget : Table.get? name entries = some v) (hread : read v = .value a) :
    field (name :: others) absent read entries = .value a := by
  have hgiven : given? (name :: others) entries = some (name, v) := by
    simp [given?, hget]
  simp only [field, hgiven]
  exact Reading.inside_eq_value_iff.2 hread

/-- A field that is given under none of its names is absent. -/
theorem field_of_absent {names : List String} {absent : α} {read : Value → Reading α}
    {entries : Table Value} (h : ∀ name ∈ names, Table.get? name entries = none) :
    field names absent read entries = .value absent := by
  have hgiven : given? names entries = none := by
    refine List.findSome?_eq_none_iff.2 fun name hname => ?_
    rw [h name hname]
    rfl
  simp only [field, hgiven]

/-- What is read and is not null is read where null is allowed. -/
theorem optional_eq_value {read : Value → Reading α} {v : Value} {a : α} (hnull : v ≠ .null)
    (hread : read v = .value a) : optional read v = .value (some a) := by
  have hmap : optional read v = (read v).map some := by
    cases v <;> first | rfl | exact absurd rfl hnull
  rw [hmap, hread]
  rfl

/-- A part that may be absent is read back, if it is read back when it is present. -/
theorem field_optional_eq_value {name : String} (others : List String) (read : Value → Reading β)
    {entries : Table Value} (part : Option α) (write : α → Value) (g : α → β)
    (hname : Table.get? name entries = part.map write)
    (hothers : ∀ other ∈ others, Table.get? other entries = none)
    (hnull : ∀ a, write a ≠ .null) (hread : ∀ a, part = some a → read (write a) = .value (g a)) :
    field (name :: others) none (optional read) entries = .value (part.map g) := by
  cases part with
  | none =>
    refine field_of_absent fun other hother => ?_
    rcases List.mem_cons.1 hother with heq | hmem
    · rw [heq]
      exact hname
    · exact hothers other hmem
  | some a => exact field_of_given _ _ _ hname (optional_eq_value (hnull a) (hread a rfl))

/-- A field that has to be there is read back, if it is. -/
theorem required_of_given {name : String} (read : Value → Reading α) {entries : Table Value}
    {v : Value} {a : α} (hget : Table.get? name entries = some v) (hread : read v = .value a) :
    required name read entries = .value a :=
  required_eq_value_iff.2 ⟨v, hget, hread⟩

/-- Reading the map of written entries gives the entries. -/
theorem table_mapEntries (read : Value → Reading β) (write : β → Value) (t : Table β)
    (h : ∀ b, read (write b) = .value b) :
    table read (.map (Table.mapEntries write t)) = .value t := by
  have hall : Reading.all (t.map fun entry =>
      ((read (write entry.2)).map fun b => (entry.1, b)).inside (writtenName entry.1)) =
        .value (t.map id) := by
    refine Reading.all_map_value _ id fun entry _ => ?_
    simp only [h]
    rfl
  rw [List.map_id] at hall
  simp only [table, Table.mapEntries, List.map_map]
  exact hall

/-- A text that is taken where it must not be empty has a UTF-8 form and is not empty. -/
theorem filledText_eq_value_iff {v : Value} {s : String} :
    filledText v = .value s ↔ v = .string s ∧ isWritable s = true ∧ s.isEmpty = false := by
  cases v with
  | string t =>
    unfold filledText
    by_cases hwritable : isWritable t = true
    · by_cases hempty : t.isEmpty = true
      · simp only [hwritable, hempty, Bool.not_true, Bool.false_eq_true, if_false, if_true]
        constructor
        · intro h
          cases h
        · rintro ⟨heq, -, hfilled⟩
          cases heq
          rw [hempty] at hfilled
          cases hfilled
      · have hfilled : t.isEmpty = false := by simpa using hempty
        simp only [hwritable, hfilled, Bool.not_true, Bool.false_eq_true, if_false]
        constructor
        · intro h
          cases h
          exact ⟨rfl, hwritable, hfilled⟩
        · rintro ⟨heq, -, -⟩
          cases heq
          rfl
    · simp only [hwritable, Bool.not_false, if_true]
      constructor
      · intro h
        cases h
      · rintro ⟨heq, hw, -⟩
        cases heq
        exact absurd hw hwritable
  | _ => exact ⟨(nomatch ·), fun h => (nomatch h.1)⟩

/-- A text that is taken for an item name is one. -/
theorem itemName_eq_value_iff {v : Value} {s : String} :
    itemName v = .value s ↔ filledText v = .value s ∧ isItemName s = true := by
  unfold itemName
  cases hread : filledText v with
  | refused found => exact ⟨(nomatch ·), fun h => (nomatch h.1)⟩
  | value t =>
    by_cases hname : isItemName t = true
    · simp only [hname, if_true]
      constructor
      · intro h
        cases h
        exact ⟨rfl, hname⟩
      · exact fun h => h.1
    · simp only [hname]
      constructor
      · intro h
        cases h
      · rintro ⟨heq, hn⟩
        cases heq
        exact absurd hn hname

/-- A written type is read back. -/
theorem itemType_text (t : ItemType) : itemType (.string t.text) = .value t := by
  simp only [itemType, ItemType.ofText?_text]

/-- A list that is taken where it must not be empty is read and has an item. -/
theorem filledList_eq_value_iff {read : Value → Reading α} {v : Value} {values : List α} :
    filledList read v = .value values ↔ list read v = .value values ∧ values ≠ [] := by
  unfold filledList
  cases hread : list read v with
  | refused found => exact ⟨(nomatch ·), fun h => (nomatch h.1)⟩
  | value items =>
    cases items with
    | nil =>
      constructor
      · intro h
        cases h
      · rintro ⟨heq, hne⟩
        cases heq
        exact absurd rfl hne
    | cons a rest =>
      constructor
      · intro h
        cases h
        exact ⟨rfl, List.cons_ne_nil _ _⟩
      · exact fun h => h.1

end Schema

/-! ## Reading an item back -/

/-- The name and the files of an item that the schema takes. -/
structure Item.IsSound (i : Item) : Prop where
  /-- The name is an item name. -/
  isItemName : Schema.isItemName i.name = true
  /-- The name has a UTF-8 form. -/
  isWritable : isWritable i.name = true
  /-- The name is not empty. -/
  isFilled : i.name.isEmpty = false
  /-- The item ships a file. -/
  ships : i.files ≠ []
  /-- Each file has a path that can be written and is not empty. -/
  paths : ∀ f ∈ i.files, Text.isWritable f.path = true ∧ f.path.isEmpty = false

namespace Schema

/-- Reading a shipped file reads each of its fields and finds nothing else. -/
theorem of_itemFile {v : Value} {f : ItemFile} (h : itemFile v = .value f) :
    ∃ entries, v = .map entries ∧ required "path" filledText entries = .value f.path ∧
      required "type" itemType entries = .value f.type ∧
      field ["target"] none (optional text) entries = .value f.target ∧
      nothingElse [["path"], ["type"], ["target"]] entries = .value () := by
  cases v with
  | map entries =>
    obtain ⟨g, u, h₁, hnothing, hf⟩ := Reading.seq_eq_value_iff.1 h
    obtain ⟨g, target, h₂, htarget, rfl⟩ := Reading.seq_eq_value_iff.1 h₁
    obtain ⟨g, type, h₃, htype, rfl⟩ := Reading.seq_eq_value_iff.1 h₂
    obtain ⟨path, hpath, rfl⟩ := Reading.map_eq_value_iff.1 h₃
    subst hf
    exact ⟨entries, rfl, hpath, htype, htarget, hnothing⟩
  | _ => cases h

/-- A file that was read has a path that can be written and is not empty. -/
theorem path_of_itemFile {v : Value} {f : ItemFile} (h : itemFile v = .value f) :
    isWritable f.path = true ∧ f.path.isEmpty = false := by
  obtain ⟨entries, -, hpath, -⟩ := of_itemFile h
  obtain ⟨w, -, hread⟩ := required_eq_value_iff.1 hpath
  exact (filledText_eq_value_iff.1 hread).2

/-- The names of each field of an item, the one it is written under first. -/
def itemFields : List (List String) :=
  [schemaNames, ["name"], ["type"], ["title"], ["description"], ["author"], ["dependencies"],
    registryDependenciesNames, ["files"], styleVarsNames, ["tailwind"]]

/-- The entries are read as the item: each field is read, and nothing else is found. -/
structure ReadsItem (entries : Table Value) (i : Item) : Prop where
  schema : field schemaNames itemSchema text entries = .value i.schema
  name : required "name" itemName entries = .value i.name
  type : required "type" itemType entries = .value i.type
  title : required "title" text entries = .value i.title
  description : required "description" text entries = .value i.description
  author : field ["author"] none (optional text) entries = .value i.author
  dependencies : field ["dependencies"] none (optional (list text)) entries = .value i.dependencies
  registryDependencies : field registryDependenciesNames none (optional (list text)) entries =
    .value i.registryDependencies
  files : required "files" (filledList itemFile) entries = .value i.files
  styleVars : field styleVarsNames none (optional styleVars) entries = .value i.styleVars
  tailwind : field ["tailwind"] none (optional tailwind) entries = .value i.tailwind
  nothingElse : nothingElse itemFields entries = .value ()

theorem itemEntries_eq_value_iff {entries : Table Value} {i : Item} :
    itemEntries entries = .value i ↔ ReadsItem entries i := by
  constructor
  · intro h
    unfold itemEntries at h
    obtain ⟨g, u, h₁, hnothing, hi⟩ := Reading.seq_eq_value_iff.1 h
    obtain ⟨g, wind, h₂, hwind, rfl⟩ := Reading.seq_eq_value_iff.1 h₁
    obtain ⟨g, vars, h₃, hvars, rfl⟩ := Reading.seq_eq_value_iff.1 h₂
    obtain ⟨g, files, h₄, hfiles, rfl⟩ := Reading.seq_eq_value_iff.1 h₃
    obtain ⟨g, mentioned, h₅, hmentioned, rfl⟩ := Reading.seq_eq_value_iff.1 h₄
    obtain ⟨g, packages, h₆, hpackages, rfl⟩ := Reading.seq_eq_value_iff.1 h₅
    obtain ⟨g, author, h₇, hauthor, rfl⟩ := Reading.seq_eq_value_iff.1 h₆
    obtain ⟨g, description, h₈, hdescription, rfl⟩ := Reading.seq_eq_value_iff.1 h₇
    obtain ⟨g, title, h₉, htitle, rfl⟩ := Reading.seq_eq_value_iff.1 h₈
    obtain ⟨g, type, h₁₀, htype, rfl⟩ := Reading.seq_eq_value_iff.1 h₉
    obtain ⟨g, name, h₁₁, hname, rfl⟩ := Reading.seq_eq_value_iff.1 h₁₀
    obtain ⟨schema, hschema, rfl⟩ := Reading.map_eq_value_iff.1 h₁₁
    subst hi
    exact ⟨hschema, hname, htype, htitle, hdescription, hauthor, hpackages, hmentioned, hfiles,
      hvars, hwind, hnothing⟩
  · intro h
    have hnothing := h.nothingElse
    unfold itemFields at hnothing
    unfold itemEntries
    simp only [h.schema, h.name, h.type, h.title, h.description, h.author, h.dependencies,
      h.registryDependencies, h.files, h.styleVars, h.tailwind, hnothing]
    rfl

/-- An item that was read is sound. -/
theorem isSound_of_itemEntries {entries : Table Value} {i : Item}
    (h : itemEntries entries = .value i) : i.IsSound := by
  have hreads := itemEntries_eq_value_iff.1 h
  obtain ⟨v, -, hname⟩ := required_eq_value_iff.1 hreads.name
  obtain ⟨htext, hpattern⟩ := itemName_eq_value_iff.1 hname
  obtain ⟨-, hwritable, hfilled⟩ := filledText_eq_value_iff.1 htext
  obtain ⟨w, -, hfiles⟩ := required_eq_value_iff.1 hreads.files
  obtain ⟨hlist, hships⟩ := filledList_eq_value_iff.1 hfiles
  refine ⟨hpattern, hwritable, hfilled, hships, fun f hf => ?_⟩
  obtain ⟨part, hpart⟩ := list_eq_value hlist f hf
  exact path_of_itemFile hpart

/-- The document of a file with a proper path is read back. -/
theorem itemFile_document {f : ItemFile} (hwritable : isWritable f.path = true)
    (hfilled : f.path.isEmpty = false) : itemFile f.document = .value f := by
  have hget (name : String) := get?_presentEntries name
    [("path", some (.string f.path)), ("type", some (.string f.type.text)),
      ("target", f.target.map .string)] (by simp)
  have hnothing := nothingElse_presentEntries [["path"], ["type"], ["target"]]
    [("path", some (.string f.path)), ("type", some (.string f.type.text)),
      ("target", f.target.map .string)] (by simp)
  have hpath := required_of_given filledText (hget "path")
    (filledText_eq_value_iff.2 ⟨rfl, hwritable, hfilled⟩)
  have htype := required_of_given itemType (hget "type") (itemType_text f.type)
  have htarget := field_optional_eq_value [] text f.target Value.string id (hget "target")
    (by simp) (by simp) (fun _ _ => rfl)
  unfold ItemFile.document itemFile record
  simp only [hpath, htype, htarget, hnothing, Option.map_id_fun, id_eq]
  rfl

/-- The document of style variables is read as their written form. -/
theorem styleVars_document (vars : StyleVars) : styleVars vars.document = .value vars.written := by
  have hget (name : String) := get?_presentEntries name
    [("theme", vars.theme.map StyleVars.scopeDocument),
      ("light", vars.light.map StyleVars.scopeDocument),
      ("dark", vars.dark.map StyleVars.scopeDocument)] (by simp)
  have hnothing := nothingElse_presentEntries [["theme"], ["light"], ["dark"]]
    [("theme", vars.theme.map StyleVars.scopeDocument),
      ("light", vars.light.map StyleVars.scopeDocument),
      ("dark", vars.dark.map StyleVars.scopeDocument)] (by simp)
  have hscope (scope : Table String) :
      table text (StyleVars.scopeDocument scope) = .value (StyleVars.writtenScope scope) := by
    rw [StyleVars.scopeDocument_eq]
    exact table_mapEntries _ _ _ fun _ => rfl
  have hnull (scope : Table String) : StyleVars.scopeDocument scope ≠ .null := by
    simp [StyleVars.scopeDocument]
  have htheme :=
    field_optional_eq_value [] (table text) vars.theme _ _ (hget "theme") (by simp) hnull
    fun scope _ => hscope scope
  have hlight :=
    field_optional_eq_value [] (table text) vars.light _ _ (hget "light") (by simp) hnull
    fun scope _ => hscope scope
  have hdark := field_optional_eq_value [] (table text) vars.dark _ _ (hget "dark") (by simp) hnull
    fun scope _ => hscope scope
  unfold StyleVars.document styleVars record
  simp only [htheme, hlight, hdark, hnothing]
  rfl

/-- The document of style sheet settings is read as their written form. -/
theorem tailwind_document (t : Tailwind) : tailwind t.document = .value t.written := by
  have hget (name : String) := get?_presentEntries name
    [("config", t.config.map fun entries => (Value.map entries).written)] (by simp)
  have hnothing := nothingElse_presentEntries [["config"]]
    [("config", t.config.map fun entries => (Value.map entries).written)] (by simp)
  have hread (entries : Table Value) :
      table Reading.value (Value.map entries).written = .value (writtenTable entries) := by
    rw [Value.written_map]
    simpa [Table.mapEntries] using
      table_mapEntries Reading.value id (writtenTable entries) fun _ => rfl
  have hconfig := field_optional_eq_value [] _ t.config _ _ (hget "config") (by simp)
    (fun entries => by simp [Value.written_map]) fun entries _ => hread entries
  unfold Tailwind.document tailwind record
  simp only [hconfig, hnothing]
  rfl

/-- A list of written texts is read where null is allowed. -/
theorem field_texts_eq_value {name : String} (others : List String) {entries : Table Value}
    (part : Option (List String)) (hname : Table.get? name entries = part.map Value.ofTexts)
    (hothers : ∀ other ∈ others, Table.get? other entries = none) :
    field (name :: others) none (optional (list text)) entries = .value part := by
  have h := field_optional_eq_value others (list text) part _ id hname hothers
    (by simp [Value.ofTexts]) fun texts _ => list_text_ofTexts texts
  simpa using h

/-- The document of a sound item is read as the item's written form. -/
theorem itemEntries_entries {i : Item} (h : i.IsSound) :
    itemEntries i.entries = .value i.written := by
  have hget (name : String) : Table.get? name i.entries = _ :=
    get?_presentEntries name _ (by simp)
  have hauthor : field ["author"] none (optional text) i.entries = .value i.author := by
    simpa using field_optional_eq_value [] text i.author Value.string id (hget "author")
      (by simp) (by simp) fun _ _ => rfl
  have hfiles : filledList itemFile (.list (i.files.map ItemFile.document)) =
      .value (i.files.map id) :=
    filledList_eq_value_iff.2 ⟨list_map_eq_value _ _ id fun f hf =>
      itemFile_document (h.paths f hf).1 (h.paths f hf).2, by simpa using h.ships⟩
  rw [List.map_id] at hfiles
  apply itemEntries_eq_value_iff.2
  exact {
    schema := field_of_given ["schema_url"] itemSchema text (hget "$schema") rfl
    name := required_of_given itemName (hget "name") (itemName_eq_value_iff.2
      ⟨filledText_eq_value_iff.2 ⟨rfl, h.isWritable, h.isFilled⟩, h.isItemName⟩)
    type := required_of_given itemType (hget "type") (itemType_text i.type)
    title := required_of_given text (hget "title") rfl
    description := required_of_given text (hget "description") rfl
    author := hauthor
    dependencies := field_texts_eq_value [] i.dependencies (hget "dependencies") (by simp)
    registryDependencies := field_texts_eq_value ["registry_dependencies"]
      i.registryDependencies (hget "registryDependencies")
      fun other hother => by rw [List.mem_singleton.1 hother]; exact hget _
    files := required_of_given (filledList itemFile) (hget "files") hfiles
    styleVars := field_optional_eq_value ["css_vars"] _ i.styleVars _ _ (hget "cssVars")
      (fun other hother => by rw [List.mem_singleton.1 hother]; exact hget _)
      (by simp [StyleVars.document]) fun vars _ => styleVars_document vars
    tailwind := field_optional_eq_value [] _ i.tailwind _ _ (hget "tailwind")
      (by simp) (by simp [Tailwind.document]) fun t _ => tailwind_document t
    nothingElse := nothingElse_presentEntries _ _ (by
      simp [itemFields, schemaNames, registryDependenciesNames, styleVarsNames]) }

/-! ## Reading a registry back -/

/-- The names of each field of a registry, the one it is written under first. -/
def registryFields : List (List String) := [schemaNames, ["name"], ["homepage"], ["items"]]

/-- The entries are read as the registry: each field is read, and nothing else is found. -/
structure ReadsRegistry (entries : Table Value) (r : Registry) : Prop where
  schema : field schemaNames registrySchema text entries = .value r.schema
  name : required "name" filledText entries = .value r.name
  homepage : field ["homepage"] none (optional text) entries = .value r.homepage
  items : field ["items"] [] (list (record "RegistryItem" itemEntries)) entries = .value r.items
  nothingElse : nothingElse registryFields entries = .value ()

theorem registryEntries_eq_value_iff {entries : Table Value} {r : Registry} :
    registryEntries entries = .value r ↔ ReadsRegistry entries r := by
  constructor
  · intro h
    unfold registryEntries at h
    obtain ⟨g, u, h₁, hnothing, hr⟩ := Reading.seq_eq_value_iff.1 h
    obtain ⟨g, items, h₂, hitems, rfl⟩ := Reading.seq_eq_value_iff.1 h₁
    obtain ⟨g, homepage, h₃, hhomepage, rfl⟩ := Reading.seq_eq_value_iff.1 h₂
    obtain ⟨g, name, h₄, hname, rfl⟩ := Reading.seq_eq_value_iff.1 h₃
    obtain ⟨schema, hschema, rfl⟩ := Reading.map_eq_value_iff.1 h₄
    subst hr
    exact ⟨hschema, hname, hhomepage, hitems, hnothing⟩
  · intro h
    have hnothing := h.nothingElse
    unfold registryFields at hnothing
    unfold registryEntries
    simp only [h.schema, h.name, h.homepage, h.items, hnothing]
    rfl

end Schema

/-- The name of a registry can be read again, and its items are sound. -/
structure Registry.IsSound (r : Registry) : Prop where
  /-- The name has a UTF-8 form. -/
  isWritable : Text.isWritable r.name = true
  /-- The name is not empty. -/
  isFilled : r.name.isEmpty = false
  /-- Each item is sound. -/
  items : ∀ i ∈ r.items, i.IsSound

namespace Schema

/-- The document of a sound registry is read as the registry's written form. -/
theorem registryEntries_entries {r : Registry} (h : r.IsSound) :
    registryEntries r.entries = .value r.written := by
  have hget (name : String) : Table.get? name r.entries = _ :=
    get?_presentEntries name _ (by simp)
  have hhomepage : field ["homepage"] none (optional text) r.entries = .value r.homepage := by
    simpa using field_optional_eq_value [] text r.homepage Value.string id (hget "homepage")
      (by simp) (by simp) fun _ _ => rfl
  apply registryEntries_eq_value_iff.2
  exact {
    schema := field_of_given ["schema_url"] registrySchema text (hget "$schema") rfl
    name := required_of_given filledText (hget "name")
      (filledText_eq_value_iff.2 ⟨rfl, h.isWritable, h.isFilled⟩)
    homepage := hhomepage
    items := field_of_given [] [] _ (hget "items")
      (list_map_eq_value _ _ _ fun i hi => itemEntries_entries (h.items i hi))
    nothingElse := nothingElse_presentEntries _ _ (by simp [registryFields, schemaNames]) }

end Schema

end StoryRegistry
