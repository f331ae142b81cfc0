import StoryRegistry.Proofs.Analysis.Measures
import StoryRegistry.Proofs.Docs.Page
import StoryRegistry.Proofs.Import.Package

/-!
# From an import to the command that installs it

An import is kept or left out by its text, when the story file is read. What is kept has a record in the
analysis and is counted there. If it is not relative it goes into the item, under another name if the
rename table has one, and from there into the command that installs packages, which names what the item
lists.

Nothing on this way looks for the package of a specifier. A path inside a package of the host is kept like
one inside any other package (`kept_specifiers`), and a path inside a package is what the command names,
not the package (`installed_of_ofSource`).
-/

set_option autoImplicit false

namespace StoryRegistry.Docs

open Assembly (Renames StandsFor)
open Specifier (IsHostPackage IsPackageName EntersPackage isRelative)

variable {settings : Settings} {f : StoryFile} {analysis : Option Analysis} {i : Item}

/-! ## What is kept -/

/-- The analysis has a record for each dependency of the story file, in their order, and counts them. -/
structure Records (f : StoryFile) (a : Analysis) : Prop where
  specifiers : a.dependencies.map (·.specifier) = f.dependencies
  count : a.counts.dependencies = f.dependencies.length

/-- A story file that was read gets an analysis that records its dependencies, or that of a failure. -/
theorem exists_records {path source : String} (hread : StoryFile.ofSource path source = .ok f)
    (settings : Settings) (s : Session) :
    ∃ a, (ends (Analysis.ofStoryOrFailed settings Run.text f) s).1 = .ok a ∧
      ((∃ e, (ends (Analysis.ofStory settings Run.text f) s).1 = .error e) ∧ a = .failed f ∨
        Records f a) := by
  refine ⟨_, Analysis.ends_ofStoryOrFailed settings f s, ?_⟩
  unfold Analysis.inSession
  cases hend : (ends (Analysis.ofStory settings Run.text f) s).1 with
  | error e => exact .inl ⟨⟨e, rfl⟩, rfl⟩
  | ok a =>
    obtain ⟨_, -, hmeasures⟩ :=
      Analysis.measures_of_ofStory (fun _ => Analysis.not_isFramework_of_ofSource hread) hend
    refine .inr ⟨hmeasures.specifiers, ?_⟩
    rw [hmeasures.dependencies, ← hmeasures.specifiers, List.length_map]

/-- Of any specifiers those are kept, in their order, that lie in no package of the host, or that go on
behind the name of one without a scope. What is kept of the imports of a story file is recorded and
counted by the analysis, and what is not relative of it gives the packages of the item, which the command
installs. -/
theorem kept_specifiers (settings : Settings) (s : Session) :
    (∀ specifiers, Specifier.ofComponent specifiers = specifiers.filter fun specifier =>
      decide (IsHostPackage (Specifier.package specifier) → EntersPackage specifier)) ∧
    ∀ path source f, StoryFile.ofSource path source = .ok f →
      f.dependencies = Specifier.ofComponent f.imports ∧
      (∃ a, (ends (Analysis.ofStoryOrFailed settings Run.text f) s).1 = .ok a ∧
        ((∃ e, (ends (Analysis.ofStory settings Run.text f) s).1 = .error e) ∧ a = .failed f ∨
          Records f a)) ∧
      ∀ analysis i, Assembly.item settings f analysis = .ok (some i) →
        (∀ package, package ∈ i.packages ↔ package ≠ "" ∧ ∃ specifier ∈ f.dependencies,
          isRelative specifier = false ∧ StandsFor settings.renames specifier package) ∧
        installation i.entries =
          .ok (("npx shadcn@latest add " ++ i.name) :: npmCommands i.packages) := by
  refine ⟨Specifier.ofComponent_eq, fun path source f hread =>
    ⟨(StoryFile.derived_of_ofSource hread).1, exists_records hread settings s,
      fun analysis i hitem => ⟨fun package => ?_, installation_entries i⟩⟩⟩
  rw [Assembly.packages_of_item hitem]
  exact Assembly.mem_packages

namespace HostPaths

/-- The text of a story file that imports its component, a package of the host, and a path inside one. -/
def story : String :=
  "import \x7bA\x7d from './A';import 'react';import 'react-dom/client';export default\x7bcomponent:A\x7d"

/-- A project with that story file and its component. -/
def session : Session where
  tree := .small [("a.stories.ts", .ofSource story 1), ("A.ts", ⟨[], 1⟩)]

/-- What the story file imports. -/
def imported : List String := ["./A", "react", "react-dom/client"]

/-- What is kept of the imports. -/
def kept : List String := ["./A", "react-dom/client"]

end HostPaths

open HostPaths in
/-- Paths inside packages of the host are kept, recorded, counted and installed. -/
theorem kept_host_paths :
    ∃ f a i, StoryFile.ofSource "/p/a.stories.ts" story = .ok f ∧
      Specifier.ofComponent f.imports = kept ∧
      (ends (Analysis.ofStoryOrFailed (.small false) Run.text f) session).1 = .ok a ∧
      a.dependencies.map (·.specifier) = kept ∧ a.counts.dependencies = 2 ∧
      Assembly.item (.small false) f (some a) = .ok (some i) ∧
      installation i.entries = .ok ["npx shadcn@latest add a", "npm install react-dom/client"] := by
  have hchecked : (StoryFile.ofSource "/p/a.stories.ts" story).toOption.any (fun f =>
      f.imports == imported &&
        (ends (Analysis.ofStoryOrFailed (.small false) Run.text f) session).1.toOption.any fun a =>
          !a.dependencies.isEmpty &&
            (Assembly.item (.small false) f (some a)).toOption.any fun item => item.any fun i =>
              i.name == "a" && i.packages == ["react-dom/client"]) = true := by
    decide +kernel
  obtain ⟨f, hf, hpasses⟩ := exists_ok_of_any hchecked
  obtain ⟨himports, hmade⟩ := Bool.and_eq_true_iff.1 hpasses
  obtain ⟨a, ha, hpasses⟩ := exists_ok_of_any hmade
  obtain ⟨hsome, hassembled⟩ := Bool.and_eq_true_iff.1 hpasses
  obtain ⟨i, hitem, hlists⟩ := exists_some_of_any hassembled
  obtain ⟨hname, hpackages⟩ := Bool.and_eq_true_iff.1 hlists
  obtain ⟨hfilter, hfollow⟩ := kept_specifiers (.small false) session
  obtain ⟨hdependencies, ⟨made, hmade, hrecords⟩, hitems⟩ := hfollow _ _ f hf
  obtain ⟨-, hinstalled⟩ := hitems (some a) i hitem
  have hkept : Specifier.ofComponent f.imports = kept := by
    rw [beq_iff_eq.1 himports, hfilter]
    decide +kernel
  obtain rfl : made = a := Except.ok.inj (hmade.symm.trans ha)
  rcases hrecords with ⟨-, rfl⟩ | ⟨hspecifiers, hcount⟩
  · cases hsome
  · rw [hdependencies, hkept] at hspecifiers hcount
    refine ⟨f, made, i, hf, hkept, hmade, hspecifiers, hcount, hitem, ?_⟩
    rw [hinstalled, beq_iff_eq.1 hname, beq_iff_eq.1 hpackages]
    rfl

/-! ## What is installed -/

/-- The package stands in the story file as an import that is kept. It is of the kind of packages, and its
own package, exactly if it has the form of a package name. -/
structure IsWritten (f : StoryFile) (package : String) : Prop where
  kept : package ∈ Specifier.ofComponent f.imports
  outside : Specifier.kind package ≠ .internal
  isPackage : Specifier.kind package = .npm ∧ Specifier.package package = package ↔
    IsPackageName package

/-- The command that installs packages names those that the item lists, in their order. Each of them is
from the rename table, or it stands in the story file as it is. -/
theorem installed_of_ofSource {path source : String}
    (hread : StoryFile.ofSource path source = .ok f)
    (hitem : Assembly.item settings f analysis = .ok (some i)) :
    installation i.entries =
        .ok (("npx shadcn@latest add " ++ i.name) :: npmCommands i.packages) ∧
      ∀ package ∈ i.packages,
        (∃ specifier ∈ f.dependencies, Renames settings.renames specifier package) ∨
          IsWritten f package := by
  refine ⟨installation_entries i, fun package hpackage => ?_⟩
  rw [Assembly.packages_of_item hitem] at hpackage
  obtain ⟨-, specifier, hspecifier, houtside, hstands⟩ := Assembly.mem_packages.1 hpackage
  rcases hstands with hrenamed | ⟨rfl, -⟩
  · exact .inl ⟨specifier, hspecifier, hrenamed⟩
  · refine .inr ⟨(StoryFile.derived_of_ofSource hread).1 ▸ hspecifier, ?_,
      Specifier.kind_eq_npm_and_package_eq_self_iff houtside⟩
    unfold Specifier.kind
    rw [houtside, if_neg Bool.false_ne_true]
    split <;> exact Specifier.Kind.noConfusion

namespace DeepImport

/-- The text of a story file that imports a path inside a package, a package, and a package that goes
under another name. -/
def story : String :=
  "import 'lodash/debounce';import 'clsx';import 'zed';export default\x7bcomponent:A\x7d"

theorem exists_item_story :
    ∃ f i, StoryFile.ofSource "a.stories.ts" story = .ok f ∧
      Assembly.item Assembly.renamingSettings f none = .ok (some i) ∧ i.name = "a" ∧
      i.packages = ["acme/button", "clsx", "lodash/debounce"] := by
  have hread : (StoryFile.ofSource "a.stories.ts" story).toOption.any (fun f =>
      (Assembly.item Assembly.renamingSettings f none).toOption.any fun item => item.any fun i =>
        i.name == "a" && i.packages == ["acme/button", "clsx", "lodash/debounce"]) = true := by
    decide +kernel
  obtain ⟨f, hf, hitem⟩ := exists_ok_of_any hread
  obtain ⟨i, hitem, hlists⟩ := exists_some_of_any hitem
  obtain ⟨hname, hpackages⟩ := Bool.and_eq_true_iff.1 hlists
  exact ⟨f, i, hf, hitem, beq_iff_eq.1 hname, beq_iff_eq.1 hpackages⟩

/-- The rename table gives one name alone. -/
theorem eq_of_renames {specifier package : String}
    (h : Renames Assembly.renamingSettings.renames specifier package) : package = "acme/button" := by
  have hentry := Table.mem_of_get? h.1
  exact congrArg Prod.snd (List.mem_singleton.1 hentry)

end DeepImport

open DeepImport in
/-- The command names the package under its other name, the package that is one, and the path. -/
theorem installed_of_deep_import :
    ∃ f i, StoryFile.ofSource "a.stories.ts" story = .ok f ∧
      Assembly.item Assembly.renamingSettings f none = .ok (some i) ∧
      installation i.entries = .ok ["npx shadcn@latest add a",
        "npm install acme/button clsx lodash/debounce"] ∧
      IsWritten f "lodash/debounce" ∧ Specifier.kind "clsx" = .npm := by
  obtain ⟨f, i, hread, hitem, hname, hpackages⟩ := exists_item_story
  obtain ⟨hinstalled, heach⟩ := installed_of_ofSource hread hitem
  rw [hname, hpackages] at hinstalled
  rw [hpackages] at heach
  have hwritten {package : String} (hlisted : package ∈ ["clsx", "lodash/debounce"]) :
      IsWritten f package := by
    rcases heach package (List.mem_cons_of_mem _ hlisted) with ⟨specifier, -, hrenames⟩ | hwritten
    · rw [eq_of_renames hrenames] at hlisted
      exact absurd hlisted (by decide)
    · exact hwritten
  exact ⟨f, i, hread, hitem, hinstalled, hwritten (by decide),
    ((hwritten (by decide)).isPackage.2 (by decide)).1⟩

open DeepImport in
/-- A path inside a package is among the packages, though the rename table does not give it, and is
neither of their kind nor its own package. -/
theorem not_package_of_deep_import :
    ∃ f i, StoryFile.ofSource "a.stories.ts" story = .ok f ∧
      Assembly.item Assembly.renamingSettings f none = .ok (some i) ∧
      "lodash/debounce" ∈ i.packages ∧
      (∀ specifier, ¬Renames Assembly.renamingSettings.renames specifier "lodash/debounce") ∧
      Specifier.kind "lodash/debounce" = .registryExternal ∧
      Specifier.package "lodash/debounce" = "lodash" := by
  obtain ⟨f, i, hread, hitem, -, hpackages⟩ := exists_item_story
  refine ⟨f, i, hread, hitem, ?_, fun specifier hrenames => ?_, by decide, by decide⟩
  · rw [hpackages]
    decide
  · exact absurd (eq_of_renames hrenames) (by decide)

end StoryRegistry.Docs
