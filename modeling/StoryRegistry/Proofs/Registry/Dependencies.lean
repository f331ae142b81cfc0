import StoryRegistry.Proofs.Registry.Acceptance
import StoryRegistry.Proofs.Text.Order

/-!
# What an item depends on

An item lists the packages that its story file imports, under the names that the rename table gives them,
and the catalogued items that the imports mention. Both lists are in order, each entry once
(`ascending_packages`, `ascending_mentioned`), so they are determined by which imports there are, and the
item of a story file is the same whatever the order of the imports (`lists_of_item`).
-/

set_option autoImplicit false

namespace StoryRegistry

open Text

/-- The packages that the item lists. -/
def Item.packages (i : Item) : List String := i.dependencies.getD []

/-- The items that the item lists. -/
def Item.mentioned (i : Item) : List String := i.registryDependencies.getD []

namespace Assembly

/-! ## Packages -/

/-- The rename table has that entry for the specifier, and the entry is not empty. -/
def Renames (renames : Table String) (specifier package : String) : Prop :=
  Table.get? specifier renames = some package ∧ package ≠ ""

/-- The specifier stands for the package: the rename table says so, or it says nothing and the package is
the specifier itself. -/
def StandsFor (renames : Table String) (specifier package : String) : Prop :=
  Renames renames specifier package ∨
    package = specifier ∧ ∀ other, ¬Renames renames specifier other

variable {renames : Table String} {f : StoryFile}

theorem standsFor_iff {specifier package : String} :
    StandsFor renames specifier package ↔
      ((Table.get? specifier renames).filter (!·.isEmpty)).getD specifier = package := by
  have hrenames (other : String) : Renames renames specifier other ↔
      (Table.get? specifier renames).filter (!·.isEmpty) = some other := by
    simp [Renames, Option.filter_eq_some_iff]
  unfold StandsFor
  simp only [hrenames]
  cases (Table.get? specifier renames).filter (!·.isEmpty) with
  | none => simp [eq_comm]
  | some other => simp

/-- The packages are what the specifiers stand for that are not relative, the empty text apart. -/
theorem mem_packages {package : String} :
    package ∈ packages renames f ↔ package ≠ "" ∧ ∃ specifier ∈ f.dependencies,
      Specifier.isRelative specifier = false ∧ StandsFor renames specifier package := by
  unfold packages
  simp only [mem_sorted, Glob.mem_distinct, List.mem_filter, List.mem_map, standsFor_iff]
  simp [and_comm, and_assoc]

theorem ascending_packages (renames : Table String) (f : StoryFile) :
    Ascending (packages renames f) := ascending_sorted (Glob.nodup_distinct _)

/-- Story files with the same dependencies need the same packages. -/
theorem packages_eq {g : StoryFile} (h : ∀ specifier, specifier ∈ g.dependencies ↔
    specifier ∈ f.dependencies) : packages renames g = packages renames f := by
  refine (ascending_packages _ _).eq_of_mem_iff (ascending_packages _ _) fun package => ?_
  exact mem_packages.trans ((and_congr_right fun _ => exists_congr fun specifier =>
    and_congr_left fun _ => h specifier).trans mem_packages.symm)

/-! ## Catalogued items -/

/-- The items that are mentioned are those of the catalog that occur in an import in small letters and
not in the own name. -/
theorem mem_mentioned {imports : List String} {own name : String} :
    name ∈ mentioned imports own ↔ name ∈ catalog ∧
      (∃ specifier ∈ imports, name.toList <:+: (lower specifier).toList) ∧
        ¬name.toList <:+: own.toList := by
  unfold mentioned
  rw [mem_sorted, List.mem_filter, Bool.and_eq_true, List.any_eq_true, Bool.not_eq_true',
    Bool.eq_false_iff, ne_eq, occursIn_iff]
  simp only [occursIn_iff]

theorem nodup_catalog : catalog.Nodup := by decide +kernel

theorem ascending_mentioned (imports : List String) (own : String) :
    Ascending (mentioned imports own) := ascending_sorted (nodup_catalog.filter _)

/-- The same imports mention the same items, in whatever order and however often they stand. -/
theorem mentioned_eq {imports imports' : List String} {own : String}
    (h : ∀ specifier, specifier ∈ imports' ↔ specifier ∈ imports) :
    mentioned imports' own = mentioned imports own := by
  refine (ascending_mentioned _ _).eq_of_mem_iff (ascending_mentioned _ _) fun name => ?_
  simp only [mem_mentioned, h]

/-! ## The lists of an item -/

variable {settings : Settings} {analysis : Option Analysis} {i : Item}

theorem getD_filled (texts : List String) : (filled texts).getD [] = texts := by
  unfold filled
  cases texts <;> rfl

theorem packages_of_item (h : item settings f analysis = .ok (some i)) :
    i.packages = packages settings.renames f := by
  rw [eq_assembled_of_item h]
  exact getD_filled _

theorem mentioned_of_item (h : item settings f analysis = .ok (some i)) :
    i.mentioned = mentioned f.imports i.name := by
  rw [name_of_item h, eq_assembled_of_item h]
  exact getD_filled _

/-- A rule counts dependencies and does not look at them. -/
theorem itemType_withImports {dependencies : List String} (imports : List String)
    (h : dependencies.length = f.dependencies.length) :
    settings.itemType { f with dependencies := dependencies, imports := imports } analysis =
      settings.itemType f analysis := by
  have hsize (m : Measure) :
      m.size { f with dependencies := dependencies, imports := imports } analysis =
        m.size f analysis := by
    cases m with
    | dependencies => exact congrArg Int.ofNat h
    | _ => rfl
  unfold Settings.itemType TypeRule.applies TypeRule.isMet
  simp only [hsize]

/-- The order of its imports, and how often each of them stands there, make no difference to the item of
a story file. -/
theorem item_withImports {dependencies imports : List String}
    (hdependencies : dependencies.Perm f.dependencies)
    (himports : ∀ specifier, specifier ∈ imports ↔ specifier ∈ f.imports) :
    item settings { f with dependencies := dependencies, imports := imports } analysis =
      item settings f analysis := by
  have hdraft : draft settings { f with dependencies := dependencies, imports := imports } analysis =
      draft settings f analysis := by
    unfold draft
    dsimp only
    rw [itemType_withImports imports hdependencies.length_eq, mentioned_eq himports,
      packages_eq fun specifier => hdependencies.mem_iff]
    rfl
  unfold item
  rw [hdraft]

/-- The lists of an item are in order, and hold what the story file calls for. -/
structure ListsNeeds (renames : Table String) (f : StoryFile) (i : Item) : Prop where
  ascendingPackages : Ascending i.packages
  packages : ∀ package, package ∈ i.packages ↔ package ≠ "" ∧ ∃ specifier ∈ f.dependencies,
    Specifier.isRelative specifier = false ∧ StandsFor renames specifier package
  ascendingMentioned : Ascending i.mentioned
  mentioned : ∀ name, name ∈ i.mentioned ↔ name ∈ catalog ∧
    (∃ specifier ∈ f.imports, name.toList <:+: (lower specifier).toList) ∧
      ¬name.toList <:+: i.name.toList
  /-- An item does not depend on itself. -/
  other : i.name ∉ i.mentioned

/-- The item of a story file lists what the file calls for, and it is the same whatever the order of
the dependencies and of the imports, and however often an import stands there. -/
theorem lists_of_item (settings : Settings) (f : StoryFile) (analysis : Option Analysis) :
    (∀ i, item settings f analysis = .ok (some i) → ListsNeeds settings.renames f i) ∧
      ∀ dependencies imports, dependencies.Perm f.dependencies →
        (∀ specifier, specifier ∈ imports ↔ specifier ∈ f.imports) →
          item settings { f with dependencies := dependencies, imports := imports } analysis =
            item settings f analysis := by
  refine ⟨fun i hitem => ?_, fun _ _ => item_withImports⟩
  have hpackages := packages_of_item hitem
  have hmentioned := mentioned_of_item hitem
  exact {
    ascendingPackages := hpackages ▸ ascending_packages _ _
    packages := fun package => hpackages ▸ mem_packages
    ascendingMentioned := hmentioned ▸ ascending_mentioned _ _
    mentioned := fun name => hmentioned ▸ mem_mentioned
    other := fun hself => (mem_mentioned.1 (hmentioned ▸ hself)).2.2 (List.infix_refl _) }

/-- A story file that imports by an empty specifier, besides a package and a file. -/
def emptyImportStory : String :=
  "import 'zed';import '';import './input';import 'acme/button';export default\x7bcomponent:A\x7d"

/-- Settings by which one package goes under the name of another. -/
def renamingSettings : Settings :=
  { Settings.ofRoot default with renames := [("zed", "acme/button")] }

theorem exists_item_emptyImportStory :
    ∃ f i, StoryFile.ofSource "a.stories.ts" emptyImportStory = .ok f ∧
      f.dependencies = ["zed", "", "./input", "acme/button"] ∧
      item renamingSettings f none = .ok (some i) ∧
      i.packages = ["acme/button"] ∧ i.mentioned = ["button", "input"] := by
  have hread : (StoryFile.ofSource "a.stories.ts" emptyImportStory).toOption.any (fun f =>
      f.dependencies == ["zed", "", "./input", "acme/button"] &&
        (item renamingSettings f none).toOption.any fun item => item.any fun i =>
          i.packages == ["acme/button"] && i.mentioned == ["button", "input"]) = true := by
    decide +kernel
  obtain ⟨f, hf, hpasses⟩ := exists_ok_of_any hread
  obtain ⟨hdependencies, hitem⟩ := Bool.and_eq_true_iff.1 hpasses
  obtain ⟨i, hitem, hlists⟩ := exists_some_of_any hitem
  obtain ⟨hpackages, hmentioned⟩ := Bool.and_eq_true_iff.1 hlists
  exact ⟨f, i, hf, beq_iff_eq.1 hdependencies, hitem, beq_iff_eq.1 hpackages,
    beq_iff_eq.1 hmentioned⟩

/-- Two imports that stand for one package, an empty one and a relative one give an item with one package;
the item stays with the dependencies in another order and each import twice. -/
theorem lists_of_emptyImportStory :
    ∃ f i, StoryFile.ofSource "a.stories.ts" emptyImportStory = .ok f ∧
      item renamingSettings f none = .ok (some i) ∧ ListsNeeds renamingSettings.renames f i ∧
      i.packages = ["acme/button"] ∧ i.mentioned = ["button", "input"] ∧
      item renamingSettings { f with
        dependencies := f.dependencies.reverse, imports := f.imports ++ f.imports } none =
          .ok (some i) := by
  obtain ⟨f, i, hread, -, hitem, hpackages, hmentioned⟩ := exists_item_emptyImportStory
  obtain ⟨hlists, hsame⟩ := lists_of_item renamingSettings f none
  refine ⟨f, i, hread, hitem, hlists i hitem, hpackages, hmentioned, ?_⟩
  rw [hsame _ _ (List.reverse_perm _) fun specifier => by simp, hitem]

/-- An empty specifier is not relative and stands for itself, and it is not among the packages. -/
theorem not_listed_of_empty_specifier :
    ∃ f i, StoryFile.ofSource "a.stories.ts" emptyImportStory = .ok f ∧
      item renamingSettings f none = .ok (some i) ∧ "" ∈ f.dependencies ∧
      Specifier.isRelative "" = false ∧ StandsFor renamingSettings.renames "" "" ∧
      "" ∉ i.packages := by
  obtain ⟨f, i, hread, hdependencies, hitem, hpackages, -⟩ := exists_item_emptyImportStory
  refine ⟨f, i, hread, hitem, ?_, by decide, standsFor_iff.2 (by decide), ?_⟩
  · rw [hdependencies]
    decide
  · rw [hpackages]
    decide

end Assembly

end StoryRegistry
