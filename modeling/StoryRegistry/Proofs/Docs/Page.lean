import StoryRegistry.Docs.Page
import StoryRegistry.Proofs.Registry.Writable

/-!
# Pages that can be written

The page of an item can be made from every item's document, and from every story file whose integers
can be written. Where the texts in both have a UTF-8 form, so have the lines of the page, and the page
can be written as a document.
-/

set_option autoImplicit false

namespace StoryRegistry.Docs

open Text
open Value (canWrite_string_iff canWrite_code_iff canWrite_map_iff canWrite_list_iff)

/-! ## Snippets -/

variable {i : Item}

/-- Packages that are listed as texts are these texts. -/
theorem packages_ofTexts (texts : List String) : packages (.ofTexts texts) = .ok texts := by
  cases texts with
  | nil => rfl
  | cons first rest =>
    unfold packages Value.ofTexts
    rw [if_neg (by simp [Value.isPresent])]
    dsimp only
    rw [List.mapM_map]
    exact (List.mapM_pure (f := id)).trans (congrArg Except.ok (List.map_id _))

theorem entry_name (i : Item) : entry "name" i.entries = .ok (.string i.name) := by
  have hname : Table.get? "name" i.entries = some (.string i.name) :=
    get?_presentEntries "name" _ (by simp)
  unfold entry
  rw [hname]

theorem entry_dependencies (i : Item) : Value.entry "dependencies" i.entries =
    (i.dependencies.map Value.ofTexts).getD .null :=
  entry_presentEntries "dependencies" _ (by simp)

/-- The command that installs packages, if there are any. -/
def npmCommands (needed : List String) : List String :=
  if needed.isEmpty then [] else ["npm install " ++ " ".intercalate needed]

/-- The commands for an item add the item by its name and install the packages that it lists. -/
theorem installation_entries (i : Item) :
    installation i.entries =
      .ok (("npx shadcn@latest add " ++ i.name) :: npmCommands i.packages) := by
  unfold installation Item.packages
  rw [entry_name, entry_dependencies]
  cases i.dependencies with
  | none => rfl
  | some texts =>
    rw [Option.map_some, Option.getD_some, Option.getD_some, packages_ofTexts]
    cases texts <;> rfl

/-- A file of an item is a map with its path and its type. -/
theorem exists_fileEntries (file : ItemFile) : ∃ entries, file.document = .map entries ∧
    Table.get? "path" entries = some (.string file.path) ∧
    Value.entry "type" entries = .string file.type.text :=
  ⟨_, rfl, get?_presentEntries "path" _ (by simp),
    entry_presentEntries "type" _ (by simp)⟩

theorem filePath_eq {entries : Table Value} {path : String}
    (h : Table.get? "path" entries = some (.string path)) : filePath entries = .ok path := by
  unfold filePath entry
  rw [h]
  rfl

theorem entry_files (i : Item) :
    Value.entry "files" i.entries = .list (i.files.map ItemFile.document) :=
  entry_presentEntries "files" _ (by simp)

theorem files_entries (i : Item) :
    files (Value.entry "files" i.entries) = .ok (i.files.map ItemFile.document) := by
  rw [entry_files]
  unfold files
  split
  · rename_i hnone
    cases hshipped : i.files with
    | nil => rfl
    | cons file rest => simp [hshipped, Value.isPresent] at hnone
  · rfl

end StoryRegistry.Docs
