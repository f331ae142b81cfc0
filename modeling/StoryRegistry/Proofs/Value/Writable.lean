import StoryRegistry.Proofs.Registry.Written
import StoryRegistry.Proofs.Text.Writable
import StoryRegistry.Proofs.Value.Json
import StoryRegistry.Value.Shown

/-!
# Values that can be written

A value can be written as JSON if its integers are not too long and its texts and names have a UTF-8
form. So can then its written form, and the text in which a style variable shows it.
-/

set_option autoImplicit false

namespace StoryRegistry.Value

/-- Every integer in the value can be written, and every text and every name has a UTF-8 form. -/
structure CanWrite (v : Value) : Prop where
  fits : v.intsFit = true
  writable : v.isWritable = true

instance (v : Value) : Decidable v.CanWrite :=
  decidable_of_iff (v.intsFit = true ∧ v.isWritable = true)
    ⟨fun ⟨hfits, hwritable⟩ => ⟨hfits, hwritable⟩, fun h => ⟨h.fits, h.writable⟩⟩

theorem itemsFit_iff {items : List Value} :
    itemsFit items = true ↔ ∀ v ∈ items, v.intsFit = true := by
  induction items with
  | nil => simp [itemsFit]
  | cons v rest ih => rw [itemsFit, Bool.and_eq_true, ih, List.forall_mem_cons]

theorem itemsWritable_iff {items : List Value} :
    itemsWritable items = true ↔ ∀ v ∈ items, v.isWritable = true := by
  induction items with
  | nil => simp [itemsWritable]
  | cons v rest ih => rw [itemsWritable, Bool.and_eq_true, ih, List.forall_mem_cons]

theorem entriesFit_iff {entries : Table Value} :
    entriesFit entries = true ↔ ∀ e ∈ entries, e.2.intsFit = true := by
  induction entries with
  | nil => simp [entriesFit]
  | cons e rest ih => rw [entriesFit, Bool.and_eq_true, ih, List.forall_mem_cons]

theorem entriesWritable_iff {entries : Table Value} : entriesWritable entries = true ↔
    ∀ e ∈ entries, Text.isWritable e.1 = true ∧ e.2.isWritable = true := by
  induction entries with
  | nil => simp [entriesWritable]
  | cons e rest ih =>
    rw [entriesWritable, Bool.and_eq_true, Bool.and_eq_true, ih, List.forall_mem_cons]

theorem canWrite_string_iff {s : String} : CanWrite (.string s) ↔ Text.isWritable s = true := by
  refine ⟨fun h => ?_, fun h => ⟨by simp [intsFit], by simpa [isWritable] using h⟩⟩
  simpa [isWritable] using h.writable

theorem canWrite_code_iff {text : String} :
    CanWrite (.code text) ↔ Text.isWritable text = true := by
  refine ⟨fun h => ?_, fun h => ⟨by simp [intsFit], by simpa [isWritable] using h⟩⟩
  simpa [isWritable] using h.writable

/-- A list can be written exactly if its items can. -/
theorem canWrite_list_iff {items : List Value} :
    CanWrite (.list items) ↔ ∀ v ∈ items, v.CanWrite := by
  constructor
  · rintro ⟨hfits, hwritable⟩ v hv
    rw [intsFit, itemsFit_iff] at hfits
    rw [isWritable, itemsWritable_iff] at hwritable
    exact ⟨hfits v hv, hwritable v hv⟩
  · intro h
    constructor
    · rw [intsFit, itemsFit_iff]
      exact fun v hv => (h v hv).fits
    · rw [isWritable, itemsWritable_iff]
      exact fun v hv => (h v hv).writable

/-- A map can be written exactly if its names have a UTF-8 form and its entries can be written. -/
theorem canWrite_map_iff {entries : Table Value} :
    CanWrite (.map entries) ↔ ∀ e ∈ entries, Text.isWritable e.1 = true ∧ e.2.CanWrite := by
  constructor
  · rintro ⟨hfits, hwritable⟩ e he
    rw [intsFit, entriesFit_iff] at hfits
    rw [isWritable, entriesWritable_iff] at hwritable
    exact ⟨(hwritable e he).1, hfits e he, (hwritable e he).2⟩
  · intro h
    constructor
    · rw [intsFit, entriesFit_iff]
      exact fun e he => (h e he).2.fits
    · rw [isWritable, entriesWritable_iff]
      exact fun e he => ⟨(h e he).1, (h e he).2.writable⟩

/-- What is found in a map that can be written can be written. -/
theorem CanWrite.entry {entries : Table Value} (h : CanWrite (.map entries)) (name : String) :
    (entry name entries).CanWrite := by
  unfold Value.entry
  cases hget : Table.get? name entries with
  | none => exact ⟨by simp [intsFit], by simp [isWritable]⟩
  | some v => exact (canWrite_map_iff.1 h _ (Table.mem_of_get? hget)).2

/-! ## Written forms -/

mutual

/-- The value with source text as text can be written. -/
theorem CanWrite.spelled : ∀ {v : Value}, v.CanWrite → v.spelled.CanWrite
  | .null, h | .bool _, h | .int _, h | .double _, h | .string _, h => by
    rw [Value.spelled]
    · exact h
    all_goals simp
  | .code text, h => by
    rw [Value.spelled, canWrite_string_iff]
    exact canWrite_code_iff.1 h
  | .list items, h => by
    rw [Value.spelled]
    exact canWrite_spelledItems h
  | .map entries, h => by
    rw [Value.spelled]
    exact canWrite_spelledEntries h

theorem canWrite_spelledItems : ∀ {items : List Value}, CanWrite (.list items) →
    CanWrite (.list (spelledItems items))
  | [], h => by rwa [spelledItems]
  | v :: rest, h => by
    obtain ⟨hfirst, hrest⟩ := List.forall_mem_cons.1 (canWrite_list_iff.1 h)
    have hmore := canWrite_spelledItems (canWrite_list_iff.2 hrest)
    rw [spelledItems, canWrite_list_iff]
    exact List.forall_mem_cons.2 ⟨hfirst.spelled, canWrite_list_iff.1 hmore⟩

theorem canWrite_spelledEntries : ∀ {entries : List (String × Value)}, CanWrite (.map entries) →
    CanWrite (.map (spelledEntries entries))
  | [], h => by rwa [spelledEntries]
  | (name, v) :: rest, h => by
    obtain ⟨hfirst, hrest⟩ := List.forall_mem_cons.1 (canWrite_map_iff.1 h)
    have hmore := canWrite_spelledEntries (canWrite_map_iff.2 hrest)
    rw [spelledEntries, canWrite_map_iff]
    exact List.forall_mem_cons.2 ⟨⟨hfirst.1, hfirst.2.spelled⟩, canWrite_map_iff.1 hmore⟩

end

theorem isWritable_writtenName (name : String) : Text.isWritable (writtenName name) = true :=
  Text.isWritable_iff.2 (writtenName_writable name)

mutual

/-- The written form of a value can be written if the value can. -/
theorem CanWrite.written : ∀ {v : Value}, v.CanWrite → v.written.CanWrite
  | .null, h | .bool _, h | .int _, h | .string _, h => by simpa [Value.written] using h
  | .double x, h => by
    cases x <;> simp only [Value.written] <;> exact ⟨by simp [intsFit], by simp [isWritable]⟩
  | .code text, h => by
    have hname : Text.isWritable "source" = true := by decide
    rw [Value.written, canWrite_map_iff]
    exact List.forall_mem_singleton.2 ⟨hname, canWrite_string_iff.2 (canWrite_code_iff.1 h)⟩
  | .list items, h => by
    rw [Value.written]
    exact canWrite_writtenItems h
  | .map entries, h => by
    have hentries := canWrite_map_iff.1 (canWrite_writtenEntries h)
    rw [Value.written, canWrite_map_iff]
    exact fun e he => hentries e (Table.mem_of_mem_ofList he)

theorem canWrite_writtenItems : ∀ {items : List Value}, CanWrite (.list items) →
    CanWrite (.list (writtenItems items))
  | [], h => by rwa [writtenItems]
  | v :: rest, h => by
    obtain ⟨hfirst, hrest⟩ := List.forall_mem_cons.1 (canWrite_list_iff.1 h)
    have hmore := canWrite_writtenItems (canWrite_list_iff.2 hrest)
    rw [writtenItems, canWrite_list_iff]
    exact List.forall_mem_cons.2 ⟨hfirst.written, canWrite_list_iff.1 hmore⟩

theorem canWrite_writtenEntries : ∀ {entries : List (String × Value)}, CanWrite (.map entries) →
    CanWrite (.map (writtenEntries entries))
  | [], h => by rwa [writtenEntries]
  | (name, v) :: rest, h => by
    obtain ⟨hfirst, hrest⟩ := List.forall_mem_cons.1 (canWrite_map_iff.1 h)
    have hmore := canWrite_writtenEntries (canWrite_map_iff.2 hrest)
    rw [writtenEntries, canWrite_map_iff]
    exact List.forall_mem_cons.2 ⟨⟨isWritable_writtenName name, hfirst.2.written⟩,
      canWrite_map_iff.1 hmore⟩

end

/-! ## Shown forms -/

open Text (AllPlain)

theorem isWritable_of_allPlain {s : String} (h : AllPlain s) : Text.isWritable s = true :=
  Text.isWritable_iff.2 fun c hc => (h c hc).surrogate?

mutual

/-- Inside a list or a map a value is shown as a text that has a UTF-8 form, as texts are literals
there. -/
theorem isWritable_inner : ∀ v : Value, Text.isWritable v.inner = true
  | .null => by
    rw [inner]
    decide
  | .bool b => by
    rw [inner]
    cases b <;> decide
  | .int n => by
    rw [inner]
    exact isWritable_of_allPlain (Text.allPlain_toString n)
  | .double x => by
    rw [inner]
    exact isWritable_of_allPlain (Double.allPlain_textWith (by decide) (by decide) x)
  | .string s => by
    rw [inner]
    exact Text.isWritable_literal s
  | .code text => by
    rw [inner]
    exact Text.isWritable_literal text
  | .list items => by
    have hitems := Text.isWritable_intercalate (by decide : Text.isWritable ", " = true)
      (isWritable_innerItems items)
    rw [inner, Text.isWritable_append, Text.isWritable_append, hitems]
    decide
  | .map entries => by
    have hentries := Text.isWritable_intercalate (by decide : Text.isWritable ", " = true)
      (isWritable_innerEntries entries)
    rw [inner, Text.isWritable_append, Text.isWritable_append, hentries]
    decide

theorem isWritable_innerItems :
    ∀ items : List Value, ∀ s ∈ innerItems items, Text.isWritable s = true
  | [] => by simp [innerItems]
  | v :: rest => by
    rw [innerItems]
    exact List.forall_mem_cons.2 ⟨isWritable_inner v, isWritable_innerItems rest⟩

theorem isWritable_innerEntries :
    ∀ entries : List (String × Value), ∀ s ∈ innerEntries entries, Text.isWritable s = true
  | [] => by simp [innerEntries]
  | (name, v) :: rest => by
    rw [innerEntries]
    refine List.forall_mem_cons.2 ⟨?_, isWritable_innerEntries rest⟩
    rw [Text.isWritable_append, Text.isWritable_append, Text.isWritable_literal, isWritable_inner v]
    decide

end

/-- A value that can be written is shown as a text that has a UTF-8 form. -/
theorem CanWrite.shown {v : Value} (h : v.CanWrite) : Text.isWritable v.shown = true := by
  cases v with
  | string s => exact canWrite_string_iff.1 h
  | code text => exact canWrite_code_iff.1 h
  | _ => exact isWritable_inner _

end StoryRegistry.Value
