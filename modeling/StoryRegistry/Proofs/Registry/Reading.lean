import StoryRegistry.Proofs.Table
import StoryRegistry.Registry.Schema

/-!
# What reading a document tells

A reading in several parts gives a value exactly when every part does. From that follows what the
name and the files of an item that was read look like, and that a document whose parts are written
one by one is read part by part, with nothing left over.
-/

set_option autoImplicit false

namespace StoryRegistry

namespace Reading

variable {α β : Type}

/-- A changed reading gives a value exactly when the reading does. -/
theorem map_eq_value_iff {f : α → β} {x : Reading α} {b : β} :
    f <$> x = .value b ↔ ∃ a, x = .value a ∧ f a = b := by
  cases x with
  | value a =>
    show Reading.value (f a) = .value b ↔ _
    simp
  | refused found =>
    show Reading.refused found = .value b ↔ _
    simp

/-- Two parts give a value exactly when each of them does. -/
theorem seq_eq_value_iff {f : Reading (α → β)} {x : Reading α} {b : β} :
    f <*> x = .value b ↔ ∃ g a, f = .value g ∧ x = .value a ∧ g a = b := by
  cases f with
  | value g =>
    cases x with
    | value a =>
      show Reading.value (g a) = .value b ↔ _
      simp
    | refused found =>
      show Reading.refused found = .value b ↔ _
      simp
  | refused found =>
    cases x with
    | value a =>
      show Reading.refused found = .value b ↔ _
      simp
    | refused more =>
      show Reading.refused (found ++ more) = .value b ↔ _
      simp

/-- The container does not matter for whether there is a value. -/
theorem inside_eq_value_iff {key : String} {x : Reading α} {a : α} :
    x.inside key = .value a ↔ x = .value a := by
  cases x <;> simp [inside]

/-- Several parts, each with a value, give the list of the values. -/
theorem all_map_value (f : α → Reading β) (g : α → β) {items : List α}
    (h : ∀ a ∈ items, f a = .value (g a)) : all (items.map f) = .value (items.map g) := by
  induction items with
  | nil => rfl
  | cons a rest ih =>
    have hrest := ih fun b hb => h b (List.mem_cons_of_mem _ hb)
    rw [List.map_cons, h a List.mem_cons_self, List.map_cons, all, hrest]
    rfl

/-- Several parts that give a list each give the item at their place. -/
theorem all_eq_value {parts : List (Reading α)} {values : List α} (h : all parts = .value values) :
    parts = values.map .value := by
  induction parts generalizing values with
  | nil =>
    cases h
    rfl
  | cons x rest ih =>
    rw [all] at h
    cases x with
    | refused found => cases hrest : all rest <;> rw [hrest] at h <;> cases h
    | value a =>
      cases hrest : all rest with
      | refused found => rw [hrest] at h; cases h
      | value more =>
        rw [hrest] at h
        cases h
        rw [ih hrest, List.map_cons]

end Reading

/-! ## Parts that are present -/

/-- What is found among the parts that are present is the part of that name. -/
theorem get?_presentEntries (name : String) (parts : List (String × Option Value))
    (h : (parts.map Prod.fst).Nodup) :
    Table.get? name (presentEntries parts) = (Table.get? name parts).join := by
  induction parts with
  | nil => rfl
  | cons head rest ih =>
    obtain ⟨key, part⟩ := head
    obtain ⟨hnew, hrest⟩ := List.nodup_cons.1 h
    cases part with
    | none =>
      have hskip : presentEntries ((key, none) :: rest) = presentEntries rest := rfl
      rw [hskip, ih hrest]
      by_cases hkey : key = name
      · have habsent : Table.get? name rest = none :=
          Table.get?_eq_none_iff.2 (by rw [← hkey]; exact hnew)
        simp [Table.get?, hkey, habsent]
      · simp [Table.get?, hkey]
    | some v =>
      have hkeep : presentEntries ((key, some v) :: rest) = (key, v) :: presentEntries rest := rfl
      rw [hkeep]
      by_cases hkey : key = name
      · simp [Table.get?, hkey]
      · simp [Table.get?, hkey, ih hrest]

/-- The entry of a name among parts of which some may be absent. -/
theorem entry_presentEntries (name : String) (parts : List (String × Option Value))
    (h : (parts.map Prod.fst).Nodup) :
    Value.entry name (presentEntries parts) = (Table.get? name parts).join.getD .null := by
  rw [Value.entry, get?_presentEntries name parts h]

namespace Schema

variable {α β : Type}

/-- Parts that go by the first names of fields leave nothing over. -/
theorem nothingElse_presentEntries (fields : List (List String))
    (parts : List (String × Option Value))
    (h : ∀ name ∈ parts.map Prod.fst, ∃ others, (name :: others) ∈ fields) :
    nothingElse fields (presentEntries parts) = .value () := by
  have hempty : (((presentEntries parts).filter fun entry =>
      !(fields.filterMap fun names =>
        (given? names (presentEntries parts)).map Prod.fst).contains entry.1).map Prod.fst) =
      [] := by
    rw [List.map_eq_nil_iff, List.filter_eq_nil_iff]
    rintro ⟨name, v⟩ hmem hother
    have hname : name ∈ parts.map Prod.fst := by
      obtain ⟨part, hpart, hsome⟩ := List.mem_filterMap.1 hmem
      obtain ⟨w, -, heq⟩ := Option.map_eq_some_iff.1 hsome
      cases heq
      exact List.mem_map_of_mem hpart
    obtain ⟨others, hfield⟩ := h name hname
    obtain ⟨w, hget⟩ := Table.exists_get? (List.mem_map_of_mem hmem)
    have hgiven : given? (name :: others) (presentEntries parts) = some (name, w) := by
      simp only at hget
      simp [given?, hget]
    have htaken : name ∈ fields.filterMap fun names =>
        (given? names (presentEntries parts)).map Prod.fst :=
      List.mem_filterMap.2 ⟨_, hfield, by rw [hgiven]; rfl⟩
    simp [htaken] at hother
  unfold nothingElse
  simp only [hempty]
  rfl

/-- Reading written items gives them back, if it does so one by one. -/
theorem list_map_eq_value (read : Value → Reading β) (write : α → Value) (g : α → β)
    {items : List α} (h : ∀ a ∈ items, read (write a) = .value (g a)) :
    list read (.list (items.map write)) = .value (items.map g) := by
  have hparts : ((items.map write).zipIdx.map fun entry =>
      (read entry.1).inside (toString entry.2)) = (items.map write).map read := by
    apply List.ext_getElem
    · simp
    · intro n hn hm
      have hlen : n < items.length := by simpa using hn
      have hread := h items[n] (List.getElem_mem hlen)
      simp [hread, Reading.inside]
  show Reading.all ((items.map write).zipIdx.map fun entry =>
    (read entry.1).inside (toString entry.2)) = _
  rw [hparts, List.map_map]
  exact Reading.all_map_value (read ∘ write) g h

/-- Reading a list of written texts gives the texts. -/
theorem list_text_ofTexts (texts : List String) :
    list text (Value.ofTexts texts) = .value texts := by
  have h : list text (.list (texts.map Value.string)) = .value (texts.map id) :=
    list_map_eq_value text Value.string id fun s _ => rfl
  simpa [Value.ofTexts] using h

/-- What is read from a list was read item by item. -/
theorem list_eq_value {read : Value → Reading α} {v : Value} {values : List α}
    (h : list read v = .value values) : ∀ a ∈ values, ∃ w, read w = .value a := by
  cases v with
  | list items =>
    have hparts : items.zipIdx.map (fun entry => (read entry.1).inside (toString entry.2)) =
        values.map .value := Reading.all_eq_value h
    intro a ha
    have hmem : Reading.value a ∈ items.zipIdx.map fun entry =>
        (read entry.1).inside (toString entry.2) := by
      rw [hparts]
      exact List.mem_map_of_mem ha
    obtain ⟨⟨w, i⟩, -, hw⟩ := List.mem_map.1 hmem
    exact ⟨w, Reading.inside_eq_value_iff.1 hw⟩
  | _ => cases h

/-- A field that has to be there gives a value exactly when it is there and is read. -/
theorem required_eq_value_iff {name : String} {read : Value → Reading α} {entries : Table Value}
    {a : α} : required name read entries = .value a ↔
      ∃ v, Table.get? name entries = some v ∧ read v = .value a := by
  unfold required
  cases Table.get? name entries with
  | none => simp [Reading.inside, Reading.refuse]
  | some v => simp [Reading.inside_eq_value_iff]

end Schema

end StoryRegistry
