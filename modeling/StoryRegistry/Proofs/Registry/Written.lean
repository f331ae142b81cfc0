import StoryRegistry.Proofs.Registry.Reading
import StoryRegistry.Registry.Item

/-!
# The written form of an item

Writing an item changes what has no written form: names of style variables and of free entries,
numbers without digits, and source text. What is written once is not changed by writing it again, so
an item and its written form have the same document, and so have a registry and its written form.
-/

set_option autoImplicit false

namespace StoryRegistry

open Text

/-- A written name holds no surrogate. -/
theorem writtenName_writable (name : String) :
    ∀ c ∈ (writtenName name).toList, surrogate? c = none := by
  intro c hc
  simp only [writtenName, String.toList_ofList, List.mem_flatMap] at hc
  obtain ⟨d, -, hd⟩ := hc
  split at hd
  · have hmark : c = '\uFFFD' := by simpa using hd
    rw [hmark]
    decide
  · rename_i hnone
    have hsame : c = d := by simpa using hd
    rw [hsame]
    simpa using hnone

/-- A name without surrogates is written as it is. -/
theorem writtenName_eq_self {name : String} (h : ∀ c ∈ name.toList, surrogate? c = none) :
    writtenName name = name := by
  have hchars : (name.toList.flatMap fun c =>
      if (surrogate? c).isSome then ['\uFFFD', '\uFFFD', '\uFFFD'] else [c]) = name.toList := by
    have general : ∀ cs : List Char, (∀ c ∈ cs, surrogate? c = none) →
        (cs.flatMap fun c =>
          if (surrogate? c).isSome then ['\uFFFD', '\uFFFD', '\uFFFD'] else [c]) = cs := by
      intro cs hcs
      induction cs with
      | nil => rfl
      | cons c rest ih =>
        rw [List.flatMap_cons, hcs c List.mem_cons_self,
          ih fun d hd => hcs d (List.mem_cons_of_mem _ hd)]
        rfl
    exact general _ h
  rw [writtenName, hchars, String.ofList_toList]

/-- Writing a name twice is writing it once. -/
@[simp] theorem writtenName_writtenName (name : String) :
    writtenName (writtenName name) = writtenName name :=
  writtenName_eq_self (writtenName_writable name)

/-! ## Free values -/

/-- The entries of a table as they are written, each name once. -/
def writtenTable (entries : Table Value) : Table Value :=
  Table.ofList (Value.writtenEntries entries)

/-- A map is written as the map of its written entries. -/
theorem Value.written_map (entries : Table Value) :
    (Value.map entries).written = .map (writtenTable entries) := by
  rw [Value.written]
  rfl

/-- The written entries, one by one. -/
theorem Value.writtenEntries_eq_map (entries : Table Value) :
    Value.writtenEntries entries = entries.map fun (name, v) => (writtenName name, v.written) := by
  induction entries with
  | nil => rw [Value.writtenEntries]; rfl
  | cons head rest ih =>
    obtain ⟨name, v⟩ := head
    rw [Value.writtenEntries, ih]
    rfl

/-- The written items, one by one. -/
theorem Value.writtenItems_eq_map (items : List Value) :
    Value.writtenItems items = items.map Value.written := by
  induction items with
  | nil => rw [Value.writtenItems]; rfl
  | cons v rest ih => rw [Value.writtenItems, ih]; rfl

/-- Each entry of a written table is the written form of an entry. -/
theorem exists_of_mem_writtenTable {entries : Table Value} {e : String × Value}
    (h : e ∈ writtenTable entries) :
    ∃ source ∈ entries, e = (writtenName source.1, source.2.written) := by
  have hmem := Table.mem_of_mem_ofList h
  rw [Value.writtenEntries_eq_map] at hmem
  obtain ⟨source, hsource, heq⟩ := List.mem_map.1 hmem
  exact ⟨source, hsource, heq.symm⟩

/-- Writing a table twice is writing it once, if that holds of its values. -/
theorem writtenTable_writtenTable_of {entries : Table Value}
    (h : ∀ e ∈ entries, e.2.written.written = e.2.written) :
    writtenTable (writtenTable entries) = writtenTable entries := by
  have hsame : Value.writtenEntries (writtenTable entries) = writtenTable entries := by
    rw [Value.writtenEntries_eq_map]
    refine (List.map_congr_left fun e he => ?_).trans (List.map_id _)
    obtain ⟨source, hsource, rfl⟩ := exists_of_mem_writtenTable he
    simp [h source hsource]
  have hnodup : (Table.names (writtenTable entries)).Nodup := Table.nodup_names_ofList _
  calc writtenTable (writtenTable entries)
      = Table.ofList (Value.writtenEntries (writtenTable entries)) := rfl
    _ = Table.ofList (writtenTable entries) := by rw [hsame]
    _ = writtenTable entries := Table.ofList_eq_self hnodup

mutual

/-- Writing a value twice is writing it once. -/
theorem Value.written_written : ∀ v : Value, v.written.written = v.written
  | .null | .bool _ | .int _ | .string _ => by simp [Value.written]
  | .double (.finite _ _) => by simp [Value.written]
  | .double (.infinite _) | .double .nan => by simp [Value.written]
  | .code text => by
    have hname : writtenName "source" = "source" := by decide
    rw [Value.written, Value.written_map]
    simp [writtenTable, Value.writtenEntries, Value.written, hname, Table.ofList, Table.set]
  | .list items => by
    have h := writtenItems_written items
    rw [Value.written, Value.written, Value.writtenItems_eq_map, Value.writtenItems_eq_map,
      List.map_map]
    exact congrArg Value.list (List.map_congr_left h)
  | .map entries => by
    rw [Value.written_map, Value.written_map,
      writtenTable_writtenTable_of (writtenEntries_written entries)]

/-- Writing items twice is writing them once. -/
theorem writtenItems_written : ∀ (items : List Value), ∀ v ∈ items, v.written.written = v.written
  | [], v, h => absurd h List.not_mem_nil
  | w :: rest, v, h => by
    rcases List.mem_cons.1 h with heq | hrest
    · rw [heq]
      exact Value.written_written w
    · exact writtenItems_written rest v hrest

/-- Writing entries twice is writing them once. -/
theorem writtenEntries_written :
    ∀ (entries : List (String × Value)), ∀ e ∈ entries, e.2.written.written = e.2.written
  | [], e, h => absurd h List.not_mem_nil
  | (name, v) :: rest, e, h => by
    rcases List.mem_cons.1 h with heq | hrest
    · rw [heq]
      exact Value.written_written v
    · exact writtenEntries_written rest e hrest

end

/-- Writing a table twice is writing it once. -/
theorem writtenTable_writtenTable (entries : Table Value) :
    writtenTable (writtenTable entries) = writtenTable entries :=
  writtenTable_writtenTable_of fun e _ => e.2.written_written

/-! ## Items -/

namespace StyleVars

/-- The variables of one scope under their written names. -/
def writtenScope (vars : Table String) : Table String :=
  Table.ofList (vars.map fun (name, v) => (writtenName name, v))

/-- Style variables under their written names. -/
def written (vars : StyleVars) : StyleVars where
  theme := vars.theme.map writtenScope
  light := vars.light.map writtenScope
  dark := vars.dark.map writtenScope

/-- The document of a scope holds the variables under their written names. -/
theorem scopeDocument_eq (vars : Table String) :
    scopeDocument vars = .map (Table.mapEntries Value.string (writtenScope vars)) := by
  unfold scopeDocument writtenScope
  rw [← Table.ofList_mapEntries]
  simp [Table.mapEntries, Function.comp_def]

/-- Writing a scope twice is writing it once. -/
theorem writtenScope_writtenScope (vars : Table String) :
    writtenScope (writtenScope vars) = writtenScope vars := by
  have hsame : ((writtenScope vars).map fun (name, v) => (writtenName name, v)) =
      writtenScope vars := by
    refine (List.map_congr_left fun e he => ?_).trans (List.map_id _)
    obtain ⟨source, -, rfl⟩ := List.mem_map.1 (Table.mem_of_mem_ofList he)
    simp
  calc writtenScope (writtenScope vars)
      = Table.ofList ((writtenScope vars).map fun (name, v) => (writtenName name, v)) := rfl
    _ = Table.ofList (writtenScope vars) := by rw [hsame]
    _ = writtenScope vars := Table.ofList_eq_self (Table.nodup_names_ofList _)

/-- Style variables and their written form have one document. -/
theorem document_written (vars : StyleVars) : vars.written.document = vars.document := by
  have hscope (t : Option (Table String)) :
      (t.map writtenScope).map scopeDocument = t.map scopeDocument := by
    cases t with
    | none => rfl
    | some vars =>
      show some (scopeDocument (writtenScope vars)) = some (scopeDocument vars)
      rw [scopeDocument_eq, scopeDocument_eq, writtenScope_writtenScope]
  unfold document written
  simp only [hscope]

end StyleVars

namespace Tailwind

/-- Style sheet settings in their written form. -/
def written (t : Tailwind) : Tailwind where
  config := t.config.map writtenTable

/-- Style sheet settings and their written form have one document. -/
theorem document_written (t : Tailwind) : t.written.document = t.document := by
  obtain ⟨config⟩ := t
  cases config with
  | none => rfl
  | some entries =>
    simp [document, written, Value.written_map, writtenTable_writtenTable]

end Tailwind

namespace Item

/-- An item with its style variables and style sheet settings in their written form. -/
def written (i : Item) : Item :=
  { i with
    styleVars := i.styleVars.map StyleVars.written
    tailwind := i.tailwind.map Tailwind.written }

/-- An item and its written form have the same entries. -/
theorem entries_written (i : Item) : i.written.entries = i.entries := by
  have hvars : (i.styleVars.map StyleVars.written).map StyleVars.document =
      i.styleVars.map StyleVars.document := by
    cases i.styleVars <;> simp [StyleVars.document_written]
  have htailwind : (i.tailwind.map Tailwind.written).map Tailwind.document =
      i.tailwind.map Tailwind.document := by
    cases i.tailwind <;> simp [Tailwind.document_written]
  unfold entries written
  simp only [hvars, htailwind]

/-- An item and its written form have the same document. -/
theorem document_written (i : Item) : i.written.document = i.document :=
  congrArg Value.map i.entries_written

end Item

/-! ## Registries -/

namespace Registry

/-- The entries of a registry's document. -/
def entries (r : Registry) : Table Value :=
  presentEntries
    [("$schema", some (.string r.schema)), ("name", some (.string r.name)),
     ("homepage", r.homepage.map .string), ("items", some (.list (r.items.map Item.document)))]

/-- A registry with its items in their written form. -/
def written (r : Registry) : Registry := { r with items := r.items.map Item.written }

/-- The written items have the names of the items. -/
theorem names_written (r : Registry) : r.written.items.map Item.name = r.items.map Item.name := by
  simp only [written, List.map_map]
  rfl

/-- A registry and its written form have the same entries. -/
theorem entries_written (r : Registry) : r.written.entries = r.entries := by
  have hitems : (r.items.map Item.written).map Item.document = r.items.map Item.document := by
    rw [List.map_map]
    exact List.map_congr_left fun i _ => i.document_written
  simp only [entries, written, hitems]

end Registry

end StoryRegistry
