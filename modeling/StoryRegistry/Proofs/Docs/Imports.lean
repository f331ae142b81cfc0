import StoryRegistry.Proofs.Docs.Page
import StoryRegistry.Proofs.FileTree.Names
import StoryRegistry.Proofs.Naming.Kebab

/-!
# What a page imports

The examples on a page show elements of the component that the story file names. The line that imports
the component has no other source for its name than the path of the item's main file, and that path
is made of the registry form. The two names are the same exactly if the component name is found again in
its registry form (`imports_component`).
-/

set_option autoImplicit false

namespace StoryRegistry.Docs

open Text

/-! ## The component of a file -/

/-- The stem of a file with an ending of component files is its name without that ending. -/
theorem fileStem_tsx {folder stem : String} (h : '/' ∉ stem.toList) :
    fileStem (folder ++ "/" ++ stem ++ ".tsx") = stem.toList := by
  have hname : '/' ∉ (stem ++ ".tsx").toList := by simp [h]
  have hsplit : splitOn '/' (folder ++ "/" ++ stem ++ ".tsx").toList =
      splitOn '/' folder.toList ++ [(stem ++ ".tsx").toList] := by
    rw [← splitOn_eq_singleton hname, ← splitOn_append_separator]
    simp
  have hcut : dropStart? ".tsx".toList.reverse (stem ++ ".tsx").toList.reverse =
      some stem.toList.reverse := by
    rw [dropStart?_eq_some_iff]
    simp
  unfold fileStem
  rw [hsplit, List.getLastD_concat]
  simp only [sourceEndings, List.map_cons, List.findSome?_cons, List.append_nil, hcut,
    Option.map_some, List.reverse_reverse]
  rfl

/-- The main file of a component that is no hook and no library exports the component whose name is
rebuilt from the item's name. -/
theorem componentOf_main {name : String} {type : ItemType} {main : ItemFile}
    (hname : '/' ∉ name.toList) (hmain : (Assembly.files name type).head? = some main)
    (htype : main.type = .component ∨ main.type = .ui) :
    componentOf main.path = Naming.pascal name ∧
      ∀ file ∈ Assembly.files name type, file.type ≠ .hook := by
  have hpath : componentOf (Assembly.basePath ++ "/" ++ name ++ "/" ++ name ++ ".tsx") =
      Naming.pascal name := by
    rw [componentOf, fileStem_tsx hname, String.ofList_toList]
  cases type with
  | hook | lib =>
    obtain rfl := Option.some.inj hmain
    simp at htype
  | _ =>
    obtain rfl := Option.some.inj hmain
    exact ⟨hpath, by simp [Assembly.files]⟩

/-! ## The lines that import an item -/

variable {i : Item}

/-- The first file is the component if it has the type of one. -/
theorem componentFile?_of_head {main : ItemFile} (htype : main.type = .component ∨ main.type = .ui)
    (rest : List ItemFile) :
    ∃ entries, componentFile? ((main :: rest).map ItemFile.document) = .ok (some entries) ∧
      Table.get? "path" entries = some (.string main.path) := by
  obtain ⟨entries, hmap, hpath, hentry⟩ := exists_fileEntries main
  have hcomponent : (hasType .component entries || hasType .ui entries) = true := by
    unfold hasType
    rw [hentry]
    rcases htype with htype | htype <;> rw [htype] <;> decide
  refine ⟨entries, ?_, hpath⟩
  rw [List.map_cons, componentFile?, hmap]
  dsimp only [fileEntries, bind, Except.bind]
  rw [hentry]
  dsimp only
  rw [if_pos hcomponent]
  rfl

theorem hookImports_eq_nil {shipped : List ItemFile} (h : ∀ file ∈ shipped, file.type ≠ .hook) :
    hookImports (shipped.map ItemFile.document) = .ok [] := by
  induction shipped with
  | nil => rfl
  | cons file rest ih =>
    obtain ⟨hfile, hrest⟩ := List.forall_mem_cons.1 h
    obtain ⟨entries, hmap, -, hentry⟩ := exists_fileEntries file
    have hno : hasType .hook entries = false := by
      unfold hasType
      rw [hentry]
      cases htype : file.type with
      | hook => exact absurd htype hfile
      | _ => decide
    rw [List.map_cons, hookImports, hmap]
    dsimp only [fileEntries, bind, Except.bind]
    rw [hno]
    exact ih hrest

/-- An item without hooks whose main file is a component is imported by one line. -/
theorem imports_of_head {main : ItemFile} (hmain : i.files.head? = some main)
    (htype : main.type = .component ∨ main.type = .ui) (hhooks : ∀ file ∈ i.files, file.type ≠ .hook) :
    imports i.entries =
      .ok [importLine (componentOf main.path) ("@/components/ui/" ++ i.name)] := by
  obtain ⟨rest, hfiles⟩ := List.head?_eq_some_iff.1 hmain
  obtain ⟨entries, hfound, hpath⟩ := componentFile?_of_head htype rest
  rw [← hfiles] at hfound
  unfold imports
  rw [files_entries]
  dsimp only [bind, Except.bind]
  rw [hfound, hookImports_eq_nil hhooks]
  dsimp only
  rw [filePath_eq hpath, entry_name]
  rfl

/-! ## Examples -/

/-- Each example shows an element of the component, behind a line of comment if it is that of a
story. -/
theorem exists_element_of_mem {f : StoryFile} {shown : String} (h : shown ∈ examples f) :
    ∃ comment args, shown = comment ++ element f.componentName args := by
  unfold examples at h
  split at h
  · cases h
  · rcases List.mem_cons.1 h with rfl | h
    · exact ⟨"", _, String.empty_append.symm⟩
    · obtain ⟨⟨exported, story⟩, -, rfl⟩ := List.mem_map.1 h
      exact ⟨_, _, rfl⟩

/-- The page of an item whose main file is a component imports one component, and shows elements of one
component. The two have the same name exactly if each capital letter of the component's name, the
first one apart, stands behind a small letter. -/
theorem imports_component {settings : Settings} {f : StoryFile} {analysis : Option Analysis}
    {i : Item} {main : ItemFile} (hname : IsComponentName f.componentName)
    (hitem : Assembly.item settings f analysis = .ok (some i)) (hmain : i.files.head? = some main)
    (htype : main.type = .component ∨ main.type = .ui) :
    imports i.entries =
        .ok [importLine (componentOf main.path) ("@/components/ui/" ++ i.name)] ∧
      examples f ≠ [] ∧
      (∀ shown ∈ examples f, ∃ comment args,
        shown = comment ++ element f.componentName args) ∧
      (componentOf main.path = f.componentName ↔
        Naming.CapitalsBeginWords f.componentName.toList) := by
  obtain rfl := Assembly.eq_assembled_of_item hitem
  have hslash : '/' ∉ (Naming.kebab f.componentName).toList := fun hmem =>
    (Schema.ne_dot_and_slash (Naming.isItemName_kebab hname) _ hmem).2 rfl
  obtain ⟨hcomponent, hhooks⟩ := componentOf_main hslash hmain htype
  refine ⟨imports_of_head hmain htype hhooks, ?_, fun shown => exists_element_of_mem, ?_⟩
  · have hfilled : f.componentName.isEmpty = false := by
      simpa using fun hempty => hname.ne_nil (by rw [hempty]; rfl)
    simp [examples, hfilled]
  · rw [hcomponent]
    exact Naming.pascal_kebab_eq_iff hname

/-- A story file of a component whose name begins with initials. -/
def initialsStory : String :=
  "export default\x7bcomponent:UIButton,args:\x7blabel:'x'\x7d\x7d"

/-- A component whose name begins with initials is shown by one name and imported by another. -/
theorem imports_of_initials :
    ∃ f i main, StoryFile.ofSource "a.stories.ts" initialsStory = .ok f ∧
      Assembly.item (Settings.ofRoot default) f none = .ok (some i) ∧
      i.files.head? = some main ∧ main.type = .component ∧
      f.componentName = "UIButton" ∧ componentOf main.path ≠ f.componentName ∧
      imports i.entries = .ok ["import \x7b Uibutton \x7d from \"@/components/ui/uibutton\""] ∧
      examples f = ["<UIButton label=\"x\" />"] := by
  have hread : (StoryFile.ofSource "a.stories.ts" initialsStory).toOption.any (fun f =>
      f.componentName == "UIButton" && examples f == ["<UIButton label=\"x\" />"] &&
        (Assembly.item (Settings.ofRoot default) f none).toOption.any fun item =>
          item.any fun i => i.name == "uibutton" &&
            i.files.head?.any fun main => decide (main.type = .component) &&
              componentOf main.path == "Uibutton") = true := by decide +kernel
  obtain ⟨f, hf, hpasses⟩ := exists_ok_of_any hread
  simp only [Bool.and_eq_true, beq_iff_eq] at hpasses
  obtain ⟨⟨hcomponent, hexamples⟩, hitem⟩ := hpasses
  obtain ⟨i, hitem, hi⟩ := exists_some_of_any hitem
  simp only [Bool.and_eq_true, beq_iff_eq] at hi
  obtain ⟨hname, hmain⟩ := hi
  obtain ⟨main, hmain, hpath⟩ := (Option.any_eq_true _ _).1 hmain
  simp only [Bool.and_eq_true, decide_eq_true_eq, beq_iff_eq] at hpath
  obtain ⟨htype, hpath⟩ := hpath
  have hnamed : IsComponentName f.componentName :=
    Assembly.isComponentName_of_ofSource hf (by rw [hcomponent]; decide)
  obtain ⟨himports, -, -, hsame⟩ := imports_component hnamed hitem hmain (.inl htype)
  refine ⟨f, i, main, hf, hitem, hmain, htype, hcomponent, ?_, ?_, hexamples⟩
  · rw [ne_eq, hsame, hcomponent]
    decide
  · rw [himports, hpath, hname]
    rfl

end StoryRegistry.Docs
